import Descent.Proofs.Classes
import Descent.Proofs.Real

/-!
# The pattern of real numbers

The pattern of literals of real numbers nests optional parts, and the search prefers a
part to its absence, which says nothing about lengths: of two ways through such a pattern
the preferred one may well be the shorter one. Here it is not. After any beginning of a
literal, a character goes on in one way at most, since the classes of the pattern that may
come next share no character (`RealKind.contains_set_iff`), and every way that goes on is
preferred to ending. So the program of the pattern follows a scanner (`Program.scans_real`)
and finds the longest text that the scanner accepts.

These texts are the literals: each literal leads to an end, part by part
(`Scanner.leads_of_isReal`), and what leads to an end is a literal, from the last part back
to the first (`Scanner.isReal_of_leads`). A sign, a point or the letter of an exponent that
no digit follows leads to no end, so it is left alone with what comes after it.
-/

namespace Descent

namespace Regex

/-! ## The pattern and its program -/

/-- The pattern of literals of real numbers. -/
def realPattern : String :=
  "[\\+\\-]?(?:[0-9]+(?:\\.[0-9]+)?|\\.[0-9]+)(?:[eE][\\+\\-]?[0-9]+)?"

/-- The kinds of characters that the pattern tells apart. -/
inductive RealKind where
  | digit
  | point
  | sign
  | mark
  deriving Repr, DecidableEq

namespace RealKind

/-- The class of a kind in the pattern. -/
def set : RealKind → CharSet
  | digit => ⟨[(48, 57)]⟩
  | point => ⟨[(46, 46)]⟩
  | sign => ⟨[(43, 43), (45, 45)]⟩
  | mark => ⟨[(69, 69), (101, 101)]⟩

/-- The kind of a character. -/
def of (c : Char) : Option RealKind :=
  if c.isDigit then some digit
  else if c = '.' then some point
  else if c = '+' ∨ c = '-' then some sign
  else if c = 'e' ∨ c = 'E' then some mark
  else none

/-- The characters of a kind. -/
def Holds : RealKind → Char → Prop
  | digit, c => c.isDigit = true
  | point, c => c = '.'
  | sign, c => c = '+' ∨ c = '-'
  | mark, c => c = 'e' ∨ c = 'E'

/-- No character is of two kinds. -/
theorem of_eq_some_iff {kind : RealKind} {c : Char} : of c = some kind ↔ kind.Holds c := by
  have hpoint : c = '.' → c.isDigit = false := by rintro rfl; rfl
  have hsign : c = '+' ∨ c = '-' → c.isDigit = false ∧ c ≠ '.' := by
    rintro (rfl | rfl) <;> decide
  have hmark : c = 'e' ∨ c = 'E' → c.isDigit = false ∧ c ≠ '.' ∧ c ≠ '+' ∧ c ≠ '-' := by
    rintro (rfl | rfl) <;> decide
  unfold of
  cases kind <;> grind [Holds]

/-- **A class holds the characters of its kind**, and no others. -/
theorem contains_set_iff {kind : RealKind} {c : Char} :
    kind.set.contains c = true ↔ of c = some kind := by
  rw [of_eq_some_iff]
  cases kind with
  | digit => simp [set, CharSet.contains, CharSet.containsCode, Holds, isDigit_iff]
  | point =>
    rw [Holds, ← Char.toNat_inj]
    simp only [set, CharSet.contains, CharSet.containsCode, List.any_cons, List.any_nil,
      Bool.or_false, Bool.and_eq_true, decide_eq_true_eq]
    exact Nat.le_antisymm_iff.symm.trans eq_comm
  | sign => exact CharSet.contains_two (a := '+') (b := '-')
  | mark => exact (CharSet.contains_two (a := 'E') (b := 'e')).trans or_comm

end RealKind

/-- **The program of the pattern.** The node 17 takes the sign, 12 the digits before a
point, 9 and 8 the point and the digits after it, 15 and 14 a point and digits without any
before them, and 5, 3 and 2 the exponent. -/
def Program.real : Program :=
  ⟨#[.accept, .fork [2, 0], .take RealKind.digit.set 1, .take RealKind.sign.set 2, .fork [3, 2],
    .take RealKind.mark.set 4, .fork [5, 0], .fork [8, 6], .take RealKind.digit.set 7,
    .take RealKind.point.set 8, .fork [9, 6], .fork [12, 10], .take RealKind.digit.set 11,
    .fork [14, 6], .take RealKind.digit.set 13, .take RealKind.point.set 14, .fork [12, 15],
    .take RealKind.sign.set 16, .fork [17, 16], .look .start 18], 19, true⟩

theorem compileAnchored_real : compileAnchored realPattern = .ok Program.real := by
  have h : (compileAnchored realPattern).toOption = some Program.real := by decide +kernel
  cases hcompile : compileAnchored realPattern with
  | ok program =>
    rw [hcompile] at h
    exact congrArg _ (Option.some.inj h)
  | error e =>
    rw [hcompile] at h
    cases h

/-! ## The states of the search -/

/-- Where in a literal the search may be; a point, and the fraction after it, is bare when
there are no digits before it. -/
inductive RealState where
  | start
  | signed
  | whole
  | point (bare : Bool)
  | fraction (bare : Bool)
  | mark
  | exponentSign
  | exponent
  deriving Repr, DecidableEq

namespace RealState

/-- The node of a state. -/
def node : RealState → Nat
  | start => 18
  | signed => 16
  | whole => 11
  | point bare => if bare then 14 else 8
  | fraction bare => if bare then 13 else 7
  | mark => 4
  | exponentSign => 2
  | exponent => 1

/-- How the search goes on with a character of a kind. -/
def step : RealState → RealKind → Option RealState
  | start, .sign => some signed
  | start, .digit | signed, .digit | whole, .digit => some whole
  | start, .point | signed, .point => some (point true)
  | whole, .point => some (point false)
  | point bare, .digit | fraction bare, .digit => some (fraction bare)
  | whole, .mark | fraction _, .mark => some mark
  | mark, .sign => some exponentSign
  | mark, .digit | exponentSign, .digit | exponent, .digit => some exponent
  | _, _ => none

/-- Whether a literal may end. -/
def accepts : RealState → Bool
  | whole | fraction _ | exponent => true
  | _ => false

/-- The threads that wait for characters in a state: a node, the kind of characters, and
the node they go on to. -/
def rows : RealState → List (Nat × RealKind × Nat)
  | start => [(17, .sign, 16), (12, .digit, 11), (15, .point, 14)]
  | signed => [(12, .digit, 11), (15, .point, 14)]
  | whole => [(12, .digit, 11), (9, .point, 8), (5, .mark, 4)]
  | point bare => [if bare then (14, .digit, 13) else (8, .digit, 7)]
  | fraction bare => [if bare then (14, .digit, 13) else (8, .digit, 7), (5, .mark, 4)]
  | mark => [(3, .sign, 2), (2, .digit, 1)]
  | exponentSign | exponent => [(2, .digit, 1)]

end RealState

/-- The scanner of literals. -/
def Scanner.real : Scanner RealState where
  init := .start
  step q c := (RealKind.of c).bind q.step
  accepts := RealState.accepts

/-! ## The texts that lead to an end -/

namespace Scanner

variable {q q' : RealState} {c : Char} {cs ds v w x m : Text}

theorem leads_real_cons : real.Leads q (c :: cs)
    ↔ ∃ kind q', kind.Holds c ∧ q.step kind = some q' ∧ real.Leads q' cs := by
  constructor
  · rintro ⟨q', hstep, hcs⟩
    obtain ⟨kind, hkind, hq⟩ := Option.bind_eq_some_iff.mp hstep
    exact ⟨kind, q', RealKind.of_eq_some_iff.mp hkind, hq, hcs⟩
  · rintro ⟨kind, q', hc, hq, hcs⟩
    exact ⟨q', Option.bind_eq_some_iff.mpr ⟨kind, RealKind.of_eq_some_iff.mpr hc, hq⟩, hcs⟩

/-! Every literal leads to an end. -/

/-- Digits lead back to a state that they do not change. -/
theorem leads_append_of_all (hq : q.step .digit = some q) (hds : ∀ d ∈ ds, d.isDigit = true)
    (h : real.Leads q v) : real.Leads q (ds ++ v) := by
  induction ds with
  | nil => exact h
  | cons d ds ih =>
    obtain ⟨hd, hds⟩ := List.forall_mem_cons.mp hds
    exact leads_real_cons.mpr ⟨.digit, q, hd, hq, ih hds⟩

theorem leads_append_of_isDigits (hq : q.step .digit = some q')
    (hq' : q'.step .digit = some q') (hds : IsDigits ds) (h : real.Leads q' v) :
    real.Leads q (ds ++ v) := by
  obtain ⟨d, ds, rfl⟩ := List.exists_cons_of_ne_nil hds.nonempty
  obtain ⟨hd, hall⟩ := List.forall_mem_cons.mp hds.all
  exact leads_real_cons.mpr ⟨.digit, q', hd, hq, leads_append_of_all hq' hall h⟩

theorem leads_of_isExponent (hend : q.accepts = true) (hmark : q.step .mark = some .mark)
    (hx : IsExponent x) : real.Leads q x := by
  cases hx with
  | none => exact hend
  | @some c s ds hc hs hds =>
    have hexponent {q : RealState} (hq : q.step .digit = some .exponent) : real.Leads q ds :=
      List.append_nil ds ▸ leads_append_of_isDigits hq rfl hds rfl
    refine leads_real_cons.mpr ⟨.mark, .mark, hc, hmark, ?_⟩
    cases hs with
    | none => exact hexponent rfl
    | plus => exact leads_real_cons.mpr ⟨.sign, .exponentSign, .inl rfl, rfl, hexponent rfl⟩
    | minus => exact leads_real_cons.mpr ⟨.sign, .exponentSign, .inr rfl, rfl, hexponent rfl⟩

theorem leads_append_of_isMantissa (hdigit : q.step .digit = some .whole)
    (hpoint : q.step .point = some (.point true)) (hm : IsMantissa m) (hx : IsExponent x) :
    real.Leads q (m ++ x) := by
  have hfraction {q : RealState} {bare : Bool} {fs : Text}
      (hq : q.step .point = some (.point bare)) (hfs : IsDigits fs) :
      real.Leads q ('.' :: (fs ++ x)) :=
    leads_real_cons.mpr ⟨.point, .point bare, rfl, hq,
      leads_append_of_isDigits rfl rfl hfs (leads_of_isExponent rfl rfl hx)⟩
  cases hm with
  | whole hds => exact leads_append_of_isDigits hdigit rfl hds (leads_of_isExponent rfl rfl hx)
  | @point ds fs hds hfs =>
    rw [List.append_assoc]
    exact leads_append_of_isDigits hdigit rfl hds (hfraction rfl hfs)
  | fraction hfs => exact hfraction hpoint hfs

theorem leads_of_isReal (hw : IsReal w) : real.Leads .start w := by
  obtain @⟨s, m, x, hs, hm, hx⟩ := hw
  have hsigned : real.Leads .signed (m ++ x) := leads_append_of_isMantissa rfl rfl hm hx
  cases hs with
  | none => exact leads_append_of_isMantissa (m := m) rfl rfl hm hx
  | plus => exact leads_real_cons.mpr ⟨.sign, .signed, .inl rfl, rfl, hsigned⟩
  | minus => exact leads_real_cons.mpr ⟨.sign, .signed, .inr rfl, rfl, hsigned⟩

/-! Nothing else leads to an end. What has been read of the part that is being read is
put in front of the text that is left. -/

theorem all_of_leads (h : real.Leads .exponent w) : ∀ d ∈ w, d.isDigit = true := by
  induction w with
  | nil => nofun
  | cons c cs ih =>
    obtain ⟨kind, q, hc, hq, hcs⟩ := leads_real_cons.mp h
    cases kind <;> cases hq
    exact List.forall_mem_cons.mpr ⟨hc, ih hcs⟩

theorem isDigits_of_leads (h : real.Leads .exponentSign w) : IsDigits w := by
  cases w with
  | nil => cases h
  | cons c cs =>
    obtain ⟨kind, q, hc, hq, hcs⟩ := leads_real_cons.mp h
    cases kind <;> cases hq
    exact .cons hc (all_of_leads hcs)

theorem isExponent_of_leads (hc : c = 'e' ∨ c = 'E') (h : real.Leads .mark w) :
    IsExponent (c :: w) := by
  cases w with
  | nil => cases h
  | cons d cs =>
    obtain ⟨kind, q, hd, hq, hcs⟩ := leads_real_cons.mp h
    cases kind with
    | digit =>
      cases hq
      exact .some hc .none (.cons hd (all_of_leads hcs))
    | sign =>
      cases hq
      obtain rfl | rfl := hd
      · exact .some hc .plus (isDigits_of_leads hcs)
      · exact .some hc .minus (isDigits_of_leads hcs)
    | point | mark => cases hq

/-- After digits of a fraction come others, and an exponent. -/
theorem exists_of_leads_fraction {bare : Bool} (hds : IsDigits ds)
    (h : real.Leads (.fraction bare) w) :
    ∃ fs x, ds ++ w = fs ++ x ∧ IsDigits fs ∧ IsExponent x := by
  induction w generalizing ds with
  | nil => exact ⟨ds, [], rfl, hds, .none⟩
  | cons c cs ih =>
    obtain ⟨kind, q, hc, hq, hcs⟩ := leads_real_cons.mp h
    cases kind with
    | digit =>
      cases hq
      rw [← List.singleton_append, ← List.append_assoc]
      exact ih (hds.append_singleton hc) hcs
    | mark =>
      cases hq
      exact ⟨ds, c :: cs, rfl, hds, isExponent_of_leads hc hcs⟩
    | point | sign => cases hq

theorem exists_of_leads_point {bare : Bool} (h : real.Leads (.point bare) w) :
    ∃ fs x, w = fs ++ x ∧ IsDigits fs ∧ IsExponent x := by
  cases w with
  | nil => cases h
  | cons c cs =>
    obtain ⟨kind, q, hc, hq, hcs⟩ := leads_real_cons.mp h
    cases kind <;> cases hq
    exact exists_of_leads_fraction (.singleton hc) hcs

/-- After digits of a mantissa come others, a fraction, and an exponent. -/
theorem exists_of_leads_whole (hds : IsDigits ds) (h : real.Leads .whole w) :
    ∃ m x, ds ++ w = m ++ x ∧ IsMantissa m ∧ IsExponent x := by
  induction w generalizing ds with
  | nil => exact ⟨ds, [], rfl, .whole hds, .none⟩
  | cons c cs ih =>
    obtain ⟨kind, q, hc, hq, hcs⟩ := leads_real_cons.mp h
    cases kind with
    | digit =>
      cases hq
      rw [← List.singleton_append, ← List.append_assoc]
      exact ih (hds.append_singleton hc) hcs
    | point =>
      cases hq
      obtain rfl := hc
      obtain ⟨fs, x, rfl, hfs, hx⟩ := exists_of_leads_point hcs
      exact ⟨ds ++ '.' :: fs, x, (List.append_assoc ds ('.' :: fs) x).symm, .point hds hfs, hx⟩
    | mark =>
      cases hq
      exact ⟨ds, c :: cs, rfl, .whole hds, isExponent_of_leads hc hcs⟩
    | sign => cases hq

theorem exists_of_leads_signed (h : real.Leads .signed w) :
    ∃ m x, w = m ++ x ∧ IsMantissa m ∧ IsExponent x := by
  cases w with
  | nil => cases h
  | cons c cs =>
    obtain ⟨kind, q, hc, hq, hcs⟩ := leads_real_cons.mp h
    cases kind with
    | digit =>
      cases hq
      exact exists_of_leads_whole (.singleton hc) hcs
    | point =>
      cases hq
      obtain rfl := hc
      obtain ⟨fs, x, rfl, hfs, hx⟩ := exists_of_leads_point hcs
      exact ⟨'.' :: fs, x, rfl, .fraction hfs, hx⟩
    | sign | mark => cases hq

theorem isReal_of_leads (h : real.Leads .start w) : IsReal w := by
  have hintro {s w : Text} (hs : IsSign s) (h : real.Leads .signed w) : IsReal (s ++ w) := by
    obtain ⟨m, x, rfl, hm, hx⟩ := exists_of_leads_signed h
    exact .intro hs hm hx
  cases w with
  | nil => cases h
  | cons c cs =>
    obtain ⟨kind, q, hc, hq, hcs⟩ := leads_real_cons.mp h
    cases kind with
    | sign =>
      cases hq
      obtain rfl | rfl := hc
      · exact hintro .plus hcs
      · exact hintro .minus hcs
    | digit =>
      cases hq
      exact hintro .none (leads_real_cons.mpr ⟨.digit, .whole, hc, rfl, hcs⟩)
    | point =>
      cases hq
      exact hintro .none (leads_real_cons.mpr ⟨.point, .point true, hc, rfl, hcs⟩)
    | mark => cases hq

/-- **The texts that lead to an end are the literals.** -/
theorem leads_real : real.Leads .start = IsReal :=
  funext fun _ => propext ⟨isReal_of_leads, leads_of_isReal⟩

end Scanner

namespace Program

theorem settle_real (q : RealState) (holds : Look → Bool) :
    real.settle holds [⟨q.node, 0⟩]
      = (q.rows.map fun r => (r.1, r.2.1.set, r.2.2)).map (fun r => ⟨r.1, 0⟩)
        ++ if q.accepts then [⟨0, 0⟩] else [] := by
  cases q with
  | point bare => cases bare <;> rfl
  | fraction bare => cases bare <;> rfl
  | _ => rfl

/-- No two threads of a state go on with the same character. -/
theorem advance_real (q : RealState) (after : Option Char) :
    real.advance after ((q.rows.map fun r => (r.1, r.2.1.set, r.2.2)).map (fun r => ⟨r.1, 0⟩)
        ++ if q.accepts then [⟨0, 0⟩] else [])
      = (threadsOf RealState.node (after.bind (Scanner.real.step q)),
          if q.accepts then some 0 else none) := by
  have hrows : ∀ r ∈ q.rows.map fun r => (r.1, r.2.1.set, r.2.2),
      real.nodes[r.1]? = some (.take r.2.1 r.2.2) := by
    cases q with
    | point bare => cases bare <;> decide
    | fraction bare => cases bare <;> decide
    | _ => decide
  have hends : real.advance after (if q.accepts then [⟨0, 0⟩] else [])
      = ([], if q.accepts then some 0 else none) := by
    split <;> rfl
  rw [advance_rows hrows, hends, List.append_nil, List.filter_map, List.map_map]
  refine congrArg (·, _) ?_
  cases after with
  | none => exact congrArg _ (List.filter_eq_nil_iff.mpr fun _ _ => Bool.false_ne_true)
  | some c =>
    have hkinds : (fun r : Nat × RealKind × Nat => r.2.1.set.contains c)
        = fun r => decide (RealKind.of c = some r.2.1) :=
      funext fun r => Bool.eq_iff_iff.mpr (RealKind.contains_set_iff.trans decide_eq_true_iff.symm)
    show ((q.rows.filter fun r => r.2.1.set.contains c).map fun r => (⟨r.2.2, 0⟩ : Thread))
      = threadsOf RealState.node ((RealKind.of c).bind q.step)
    rw [hkinds]
    generalize RealKind.of c = kind
    cases kind with
    | none => exact congrArg _ (List.filter_eq_nil_iff.mpr fun _ _ => by simp)
    | some kind =>
      cases q with
      | point bare => cases bare <;> cases kind <;> rfl
      | fraction bare => cases bare <;> cases kind <;> rfl
      | _ => cases kind <;> rfl

theorem scans_real : real.Scans Scanner.real RealState.node where
  anchored := rfl
  first after := ⟨_, rfl, advance_real .start after⟩
  next q _ after := ⟨_, settle_real q _, advance_real q after⟩

/-- **The pattern matches the longest literal.** -/
theorem findsLongest_real : Reader.FindsLongest real.find? IsReal := by
  rw [scans_real.find?_eq, ← Scanner.leads_real]
  exact Scanner.real.findsLongest .start

end Program

end Regex

end Descent
