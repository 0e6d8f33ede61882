import Descent.Decimal.Reading

/-!
# What a real number literal is

The literals of real numbers are the texts of a regular grammar (`IsReal`): an
optional sign; digits, with a point and digits after them or not, or a point
and digits alone; an optional exponent. `Decimal.spelling?` takes one from the
beginning of a text, each part as long as it can be.

What it takes is a literal (`Decimal.isReal_of_spelling?`), and it takes a
literal whole wherever the text after it does not go on with a digit, a point
or the letter of an exponent (`Decimal.spelling?_append`). A sign may follow a
literal: no part of a literal ends in a letter, so the sign begins none.
-/

namespace Descent

/-! ## The grammar of literals -/

/-- The decimal digits, by their code points. -/
theorem isDigit_iff {c : Char} : c.isDigit = true ↔ 48 ≤ c.toNat ∧ c.toNat ≤ 57 := by
  simp only [Char.isDigit, Bool.and_eq_true, decide_eq_true_eq, ge_iff_le,
    UInt32.le_iff_toNat_le]
  rfl

/-- Decimal digits, at least one. -/
structure IsDigits (ds : Text) : Prop where
  nonempty : ds ≠ []
  all : ∀ c ∈ ds, c.isDigit = true

theorem IsDigits.cons {d : Char} {ds : Text} (hd : d.isDigit = true)
    (hds : ∀ c ∈ ds, c.isDigit = true) : IsDigits (d :: ds) :=
  ⟨List.cons_ne_nil d ds, List.forall_mem_cons.mpr ⟨hd, hds⟩⟩

theorem IsDigits.singleton {d : Char} (hd : d.isDigit = true) : IsDigits [d] := .cons hd nofun

theorem IsDigits.append_singleton {ds : Text} {d : Char} (hds : IsDigits ds)
    (hd : d.isDigit = true) : IsDigits (ds ++ [d]) :=
  ⟨List.append_ne_nil_of_left_ne_nil hds.nonempty [d],
    List.forall_mem_append.mpr ⟨hds.all, List.forall_mem_singleton.mpr hd⟩⟩

/-- An optional sign. -/
inductive IsSign : Text → Prop where
  | none : IsSign []
  | plus : IsSign ['+']
  | minus : IsSign ['-']

/-- Digits, with a point and digits after them or not, or a point and digits. -/
inductive IsMantissa : Text → Prop where
  | whole {ds : Text} (whole : IsDigits ds) : IsMantissa ds
  | point {ds fs : Text} (whole : IsDigits ds) (fraction : IsDigits fs) :
      IsMantissa (ds ++ '.' :: fs)
  | fraction {fs : Text} (fraction : IsDigits fs) : IsMantissa ('.' :: fs)

/-- An optional exponent: a letter, an optional sign and digits. -/
inductive IsExponent : Text → Prop where
  | none : IsExponent []
  | some {c : Char} {s ds : Text} (mark : c = 'e' ∨ c = 'E') (sign : IsSign s)
      (digits : IsDigits ds) : IsExponent (c :: (s ++ ds))

/-- **A literal of a real number.** -/
inductive IsReal : Text → Prop where
  | intro {s m x : Text} (sign : IsSign s) (mantissa : IsMantissa m) (exponent : IsExponent x) :
      IsReal (s ++ (m ++ x))

/-- A text with which no literal before it goes on. -/
def EndsReal (v : Text) : Prop :=
  ∀ c ∈ v.head?, c.isDigit = false ∧ c ≠ '.' ∧ c ≠ 'e' ∧ c ≠ 'E'

namespace Decimal

/-! ## What is taken, and what is left -/

theorem takeSign_append (cs : Text) : (takeSign cs).1 ++ (takeSign cs).2 = cs := by
  unfold takeSign
  split <;> rfl

theorem takeDigits_append (cs : Text) : (takeDigits cs).1 ++ (takeDigits cs).2 = cs :=
  List.takeWhile_append_dropWhile

/-- The text of a fraction: nothing, or a point and its digits. -/
theorem takeFraction_append (cs : Text) :
    (if (takeFraction cs).1.isEmpty then [] else '.' :: (takeFraction cs).1)
      ++ (takeFraction cs).2 = cs := by
  unfold takeFraction
  split
  · next rest =>
    have happ := takeDigits_append rest
    cases hd : takeDigits rest with
    | mk digits left =>
      rw [hd] at happ
      cases digits with
      | nil => rfl
      | cons d ds => simpa using happ
  · rfl

theorem takeExponent_isPrefix (cs : Text) :
    (takeExponent cs).1 ++ (takeExponent cs).2.1 ++ (takeExponent cs).2.2 <+: cs := by
  unfold takeExponent
  split
  · next c rest =>
    split
    · have hsign := takeSign_append rest
      have hdigits := takeDigits_append (takeSign rest).2
      simp only []
      cases hd : takeDigits (takeSign rest).2 with
      | mk digits left =>
        rw [hd] at hdigits
        cases digits with
        | nil => exact List.nil_prefix
        | cons d ds =>
          refine ⟨left, ?_⟩
          rw [← hdigits] at hsign
          simpa using hsign
    · exact List.nil_prefix
  · exact List.nil_prefix

/-- **A literal is an initial segment of the text it is read from.** -/
theorem text_isPrefix_of_spelling? {cs : Text} {s : Spelling} (h : spelling? cs = some s) :
    s.text <+: cs := by
  have hsign := takeSign_append cs
  have hwhole := takeDigits_append (takeSign cs).2
  have hfraction := takeFraction_append (takeDigits (takeSign cs).2).2
  obtain ⟨left, hexponent⟩ :=
    takeExponent_isPrefix (takeFraction (takeDigits (takeSign cs).2).2).2
  unfold spelling? at h
  simp only [Option.ite_none_left_eq_some, Option.some.injEq] at h
  obtain ⟨-, rfl⟩ := h
  refine ⟨left, ?_⟩
  simp only [Spelling.text, List.append_assoc] at hexponent ⊢
  rw [hexponent, hfraction, hwhole, hsign]

/-! ## What is taken is a literal -/

theorem isSign_takeSign (cs : Text) : IsSign (takeSign cs).1 := by
  unfold takeSign
  split
  · exact .plus
  · exact .minus
  · exact .none

theorem all_takeDigits (cs : Text) : ∀ c ∈ (takeDigits cs).1, c.isDigit = true :=
  List.all_eq_true.mp List.all_takeWhile

theorem all_takeFraction (cs : Text) : ∀ c ∈ (takeFraction cs).1, c.isDigit = true := by
  unfold takeFraction
  split
  · next rest =>
    have hall := all_takeDigits rest
    cases hd : takeDigits rest with
    | mk digits left =>
      rw [hd] at hall
      cases digits with
      | nil => simp
      | cons d ds => exact hall
  · simp

theorem isExponent_takeExponent (cs : Text) :
    IsExponent ((takeExponent cs).1 ++ (takeExponent cs).2.1 ++ (takeExponent cs).2.2) := by
  unfold takeExponent
  split
  · next c rest =>
    split
    · next hc =>
      have hsign := isSign_takeSign rest
      have hall := all_takeDigits (takeSign rest).2
      simp only []
      cases hd : takeDigits (takeSign rest).2 with
      | mk digits left =>
        rw [hd] at hall
        cases digits with
        | nil => exact .none
        | cons d ds => exact .some hc hsign ⟨List.cons_ne_nil d ds, hall⟩
    · exact .none
  · exact .none

/-- Digits and a fraction are a mantissa unless there are neither. -/
theorem isMantissa_append {ds fs : Text} (hds : ∀ c ∈ ds, c.isDigit = true)
    (hfs : ∀ c ∈ fs, c.isDigit = true) (h : ¬(ds.isEmpty && fs.isEmpty) = true) :
    IsMantissa (ds ++ if fs.isEmpty then [] else '.' :: fs) := by
  cases fs with
  | nil =>
    cases ds with
    | nil => exact absurd rfl h
    | cons d ds =>
      rw [List.isEmpty_nil, if_pos rfl, List.append_nil]
      exact .whole ⟨List.cons_ne_nil d ds, hds⟩
  | cons f fs =>
    cases ds with
    | nil => exact .fraction ⟨List.cons_ne_nil f fs, hfs⟩
    | cons d ds => exact .point ⟨List.cons_ne_nil d ds, hds⟩ ⟨List.cons_ne_nil f fs, hfs⟩

/-- **What is taken is a literal.** -/
theorem isReal_of_spelling? {cs : Text} {s : Spelling} (h : spelling? cs = some s) :
    IsReal s.text := by
  unfold spelling? at h
  simp only [Option.ite_none_left_eq_some, Option.some.injEq] at h
  obtain ⟨hmantissa, rfl⟩ := h
  have hexponent := isExponent_takeExponent (takeFraction (takeDigits (takeSign cs).2).2).2
  have htext := IsReal.intro (isSign_takeSign cs)
    (isMantissa_append (all_takeDigits _) (all_takeFraction _) hmantissa) hexponent
  simp only [Spelling.text, List.append_assoc] at htext ⊢
  exact htext

/-! ## A literal is taken whole -/

/-- A sign is taken where no other sign follows. -/
theorem takeSign_of_isSign {s v : Text} (hs : IsSign s) (hv : ∀ c ∈ v.head?, c ≠ '+' ∧ c ≠ '-') :
    takeSign (s ++ v) = (s, v) := by
  cases hs with
  | plus => rfl
  | minus => rfl
  | none =>
    rw [List.nil_append]
    unfold takeSign
    split
    · exact absurd rfl (hv '+' rfl).1
    · exact absurd rfl (hv '-' rfl).2
    · rfl

/-- **Digits go on** with those of the text behind them. -/
theorem takeDigits_append_of_all {ds : Text} (hds : ∀ c ∈ ds, c.isDigit = true) (v : Text) :
    takeDigits (ds ++ v) = (ds ++ (takeDigits v).1, (takeDigits v).2) := by
  rw [takeDigits, List.takeWhile_append_of_pos hds, List.dropWhile_append_of_pos hds]
  rfl

/-- No digits are taken where none stands. -/
theorem takeDigits_of_head {v : Text} (hv : ∀ c ∈ v.head?, c.isDigit = false) :
    takeDigits v = ([], v) := by
  cases v with
  | nil => rfl
  | cons c v =>
    have hc : ¬c.isDigit = true := by simp [hv c rfl]
    rw [takeDigits, List.takeWhile_cons_of_neg hc, List.dropWhile_cons_of_neg hc]

/-- Digits are taken up to what is no digit. -/
theorem takeDigits_of_all {ds v : Text} (hds : ∀ c ∈ ds, c.isDigit = true)
    (hv : ∀ c ∈ v.head?, c.isDigit = false) : takeDigits (ds ++ v) = (ds, v) := by
  rw [takeDigits_append_of_all hds, takeDigits_of_head hv, List.append_nil]

/-- A fraction goes on with the digits behind it. -/
theorem takeFraction_append_of_isDigits {fs : Text} (hfs : IsDigits fs) (v : Text) :
    takeFraction ('.' :: (fs ++ v)) = (fs ++ (takeDigits v).1, (takeDigits v).2) := by
  unfold takeFraction
  simp only [takeDigits_append_of_all hfs.all]
  cases fs with
  | nil => exact absurd rfl hfs.nonempty
  | cons f fs => rfl

theorem takeFraction_of_isDigits {fs v : Text} (hfs : IsDigits fs)
    (hv : ∀ c ∈ v.head?, c.isDigit = false) : takeFraction ('.' :: (fs ++ v)) = (fs, v) := by
  rw [takeFraction_append_of_isDigits hfs, takeDigits_of_head hv, List.append_nil]

/-- No fraction is taken where no point stands. -/
theorem takeFraction_of_ne {v : Text} (hv : ∀ c ∈ v.head?, c ≠ '.') : takeFraction v = ([], v) := by
  unfold takeFraction
  split
  · exact absurd rfl (hv '.' rfl)
  · rfl

/-- **A mantissa is taken whole** where neither a digit nor a point follows. -/
theorem takeMantissa_of_isMantissa {m v : Text} (hm : IsMantissa m)
    (hv : ∀ c ∈ v.head?, c.isDigit = false ∧ c ≠ '.') :
    ∃ ds fs rest, takeDigits (m ++ v) = (ds, rest) ∧ takeFraction rest = (fs, v)
      ∧ ¬(ds.isEmpty && fs.isEmpty) = true
      ∧ (ds ++ if fs.isEmpty then [] else '.' :: fs) = m := by
  have hdigit : ∀ c ∈ v.head?, c.isDigit = false := fun c hc => (hv c hc).1
  -- a point ends the digits before it
  have hpoint : ∀ rest : Text, ∀ c ∈ ('.' :: rest).head?, c.isDigit = false := by
    intro rest c hc
    rw [← Option.some.inj hc]
    rfl
  cases hm with
  | whole hds =>
    refine ⟨m, [], v, takeDigits_of_all hds.all hdigit, takeFraction_of_ne fun c hc => (hv c hc).2,
      ?_, List.append_nil m⟩
    simp [hds.nonempty]
  | @point ds fs hds hfs =>
    refine ⟨ds, fs, '.' :: (fs ++ v), ?_, takeFraction_of_isDigits hfs hdigit, ?_, ?_⟩
    · rw [List.append_assoc]
      exact takeDigits_of_all hds.all (hpoint _)
    · simp [hds.nonempty]
    · simp [hfs.nonempty]
  | @fraction fs hfs =>
    refine ⟨[], fs, '.' :: (fs ++ v), ?_, takeFraction_of_isDigits hfs hdigit, ?_, ?_⟩
    · exact @takeDigits_of_all [] _ (by simp) (hpoint _)
    · simp [hfs.nonempty]
    · simp [hfs.nonempty]

theorem isDigit_ne_sign {c : Char} (h : c.isDigit = true) : c ≠ '+' ∧ c ≠ '-' := by
  constructor
  · rintro rfl
    exact absurd h (by decide)
  · rintro rfl
    exact absurd h (by decide)

/-- An exponent goes on with the digits behind it. -/
theorem takeExponent_append {c : Char} {s ds : Text} (hc : c = 'e' ∨ c = 'E') (hs : IsSign s)
    (hds : IsDigits ds) (v : Text) :
    takeExponent (c :: (s ++ (ds ++ v))) = ([c], s, ds ++ (takeDigits v).1) := by
  -- digits follow the sign of an exponent, so it is taken alone
  have hhead : ∀ d ∈ (ds ++ v).head?, d ≠ '+' ∧ d ≠ '-' := by
    cases ds with
    | nil => exact absurd rfl hds.nonempty
    | cons d ds =>
      intro d' hd'
      rw [← Option.some.inj hd']
      exact isDigit_ne_sign (hds.all d List.mem_cons_self)
  rw [takeExponent, if_pos hc, takeSign_of_isSign hs hhead]
  simp only [takeDigits_append_of_all hds.all]
  cases ds with
  | nil => exact absurd rfl hds.nonempty
  | cons d ds => rfl

/-- **An exponent is taken whole** where no literal goes on. -/
theorem takeExponent_of_isExponent {x v : Text} (hx : IsExponent x) (hv : EndsReal v) :
    (takeExponent (x ++ v)).1 ++ ((takeExponent (x ++ v)).2.1 ++ (takeExponent (x ++ v)).2.2)
      = x := by
  cases hx with
  | none =>
    rw [List.nil_append]
    cases v with
    | nil => rfl
    | cons c v =>
      obtain ⟨-, -, he, hE⟩ := hv c rfl
      rw [takeExponent, if_neg (not_or.mpr ⟨he, hE⟩)]
      rfl
  | some hc hs hds =>
    rw [List.cons_append, List.append_assoc, takeExponent_append hc hs hds,
      takeDigits_of_head fun c hc => (hv c hc).1, List.append_nil]
    rfl

/-- A mantissa begins with a digit or a point. -/
theorem head_of_isMantissa {m : Text} (hm : IsMantissa m) :
    ∃ c cs, m = c :: cs ∧ (c.isDigit = true ∨ c = '.') := by
  have hdigits : ∀ {ds : Text}, IsDigits ds → ∃ c cs, ds = c :: cs ∧ c.isDigit = true := by
    intro ds hds
    obtain ⟨c, cs, rfl⟩ := List.exists_cons_of_ne_nil hds.nonempty
    exact ⟨c, cs, rfl, hds.all c List.mem_cons_self⟩
  cases hm with
  | whole hds =>
    obtain ⟨c, cs, rfl, hc⟩ := hdigits hds
    exact ⟨c, cs, rfl, .inl hc⟩
  | @point ds fs hds _ =>
    obtain ⟨c, cs, rfl, hc⟩ := hdigits hds
    exact ⟨c, cs ++ '.' :: fs, rfl, .inl hc⟩
  | @fraction fs _ => exact ⟨'.', fs, rfl, .inr rfl⟩

/-- No mantissa begins with a sign. -/
theorem head_of_isMantissa_append {m : Text} (hm : IsMantissa m) (v : Text) :
    ∀ c ∈ (m ++ v).head?, c ≠ '+' ∧ c ≠ '-' := by
  obtain ⟨c, cs, rfl, hc⟩ := head_of_isMantissa hm
  intro c' hc'
  rw [← Option.some.inj hc']
  obtain hc | rfl := hc
  · exact isDigit_ne_sign hc
  · exact ⟨by decide, by decide⟩

/-- After a mantissa comes an exponent, or what no literal goes on with. -/
theorem head_of_isExponent {x v : Text} (hx : IsExponent x) (hv : EndsReal v) :
    ∀ c ∈ (x ++ v).head?, c.isDigit = false ∧ c ≠ '.' := by
  cases hx with
  | none => exact fun c hc => ⟨(hv c hc).1, (hv c hc).2.1⟩
  | some hmark _ _ =>
    intro c hc
    rw [← Option.some.inj hc]
    obtain rfl | rfl := hmark
    · exact ⟨rfl, by decide⟩
    · exact ⟨rfl, by decide⟩

/-- **A literal is taken whole** wherever the text after it does not go on with it. -/
theorem spelling?_append {w v : Text} (hw : IsReal w) (hv : EndsReal v) :
    ∃ s, spelling? (w ++ v) = some s ∧ s.text = w := by
  obtain @⟨s, m, x, hs, hm, hx⟩ := hw
  have hsign := takeSign_of_isSign hs (head_of_isMantissa_append hm (x ++ v))
  obtain ⟨ds, fs, rest, hwhole, hfraction, hsome, hmantissa⟩ :=
    takeMantissa_of_isMantissa hm (head_of_isExponent hx hv)
  have hexponent := takeExponent_of_isExponent hx hv
  rw [List.append_assoc, List.append_assoc]
  unfold spelling?
  simp only [hsign, hwhole, hfraction, if_neg hsome]
  refine ⟨_, rfl, ?_⟩
  simp only [Spelling.text, List.append_assoc]
  rw [hexponent, ← List.append_assoc ds, hmantissa]

/-- **A literal has a value.** -/
theorem value?_isSome {w : Text} (hw : IsReal w) : ∃ x, value? w = some x := by
  obtain ⟨s, hs, htext⟩ := spelling?_append hw (v := []) fun c hc => absurd hc (by simp)
  rw [List.append_nil] at hs
  refine ⟨s.value, ?_⟩
  unfold value?
  simp only [hs, if_pos htext]

/-- Only one literal stands at the beginning of a text that does not go on with it. -/
theorem isReal_unique {w w' v v' : Text} (hw : IsReal w) (hw' : IsReal w') (hv : EndsReal v)
    (hv' : EndsReal v') (h : w ++ v = w' ++ v') : w = w' := by
  obtain ⟨s, hs, rfl⟩ := spelling?_append hw hv
  obtain ⟨s', hs', rfl⟩ := spelling?_append hw' hv'
  rw [h, hs'] at hs
  rw [Option.some.inj hs]

/-- A literal begins with a digit, a point or a sign. -/
theorem head_of_isReal {w : Text} (hw : IsReal w) :
    ∃ c cs, w = c :: cs ∧ (c.isDigit = true ∨ c = '.' ∨ c = '+' ∨ c = '-') := by
  obtain @⟨s, m, x, hs, hm, -⟩ := hw
  cases hs with
  | plus => exact ⟨'+', _, rfl, .inr (.inr (.inl rfl))⟩
  | minus => exact ⟨'-', _, rfl, .inr (.inr (.inr rfl))⟩
  | none =>
    obtain ⟨c, cs, rfl, hc⟩ := head_of_isMantissa hm
    refine ⟨c, cs ++ x, rfl, ?_⟩
    obtain hc | hc := hc
    · exact .inl hc
    · exact .inr (.inl hc)

end Decimal

end Descent
