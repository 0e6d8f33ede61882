import Descent.Proofs.Skipping

/-!
# What integer literals read

An integer literal is read by trying radices one after the other, and a magnitude that
is too large fails like a magnitude that is not there. A `Numeral` is what the text
means without any trying: its marker selects the radix, and the digits go as far as
they can (`Numeral.at?`). With nothing to skip,

* a numeral that fits is read as a whole and has its value (`number_reads_numeral`),
  and it does not matter whether binary or octal digits are tried first, since no
  text begins with both;
* a numeral that does not fit is rejected in the octal and the decimal radix, because the
  decimal reading of octal digits is larger still; but in the binary and the
  hexadecimal radix **the zero of its marker is read instead** (`number_too_large`);
* a literal is a sequence of tokens, each of which skips. It is a single token as long
  as nothing is skipped right after its sign and its marker (`number_one_token`);
  elsewhere separate tokens are read as one number (`number_joins_tokens`).

All three follow from `numberIn_run`, which says what comes of a literal at every
position, whatever is skipped before it.
-/

namespace Descent

namespace Literal

/-! ## Numerals -/

/-- The radices of integer literals. -/
inductive Radix where
  | octal
  | binary
  | hexadecimal
  | decimal
  deriving Repr, DecidableEq

namespace Radix

def base : Radix → Nat
  | octal => 8
  | binary => 2
  | hexadecimal => 16
  | decimal => 10

/-- What stands before the digits. -/
def marker : Radix → Text
  | octal => ['0']
  | binary => ['0', 'b']
  | hexadecimal => ['0', 'x']
  | decimal => []

def isDigit : Radix → Char → Bool
  | octal => isOctalDigit
  | binary => isBinaryDigit
  | hexadecimal => isHexDigit
  | decimal => Char.isDigit

def isAllowed (format : NumberFormat) : Radix → Bool
  | octal => format.octal
  | binary => format.binary
  | _ => true

/-- The order in which the radices are tried. -/
def inOrder : List Radix := [octal, binary, hexadecimal, decimal]

/-- The order in which the binary radix comes first. -/
def binaryFirst : List Radix := [binary, octal, hexadecimal, decimal]

/-- The radices that are tried before the decimal one. -/
def beforeDecimal : List Radix := [octal, binary, hexadecimal]

theorem mem_beforeDecimal (radix : Radix) (h : radix ≠ decimal) : radix ∈ beforeDecimal := by
  cases radix with
  | decimal => exact absurd rfl h
  | _ => decide

end Radix

/-- The digits at the beginning of a text: as many as there are, and at least one. -/
def digitRun? (isDigit : Char → Bool) (rest : Text) : Option Text :=
  match rest.takeWhile isDigit with
  | [] => none
  | digits => some digits

/-- The digits of a radix at the beginning of a text, after its marker. -/
def Radix.digits? (radix : Radix) (rest : Text) : Option Text :=
  (Text.dropExact? radix.marker rest).bind (digitRun? radix.isDigit)

/-- The digits of the first of the radices that has some at the beginning of a text. -/
def firstDigits? (radices : List Radix) (rest : Text) : Option (Radix × Text) :=
  radices.findSome? fun radix => (radix.digits? rest).map (radix, ·)

/-- An integer literal as it is written. -/
structure Numeral where
  negative : Bool
  radix : Radix
  digits : Text
  deriving Repr, DecidableEq

namespace Numeral

def sign (m : Numeral) : Text := if m.negative then ['-'] else []

def text (m : Numeral) : Text := m.sign ++ (m.radix.marker ++ m.digits)

def magnitude (m : Numeral) : Nat := valueIn m.radix.base m.digits

def value (m : Numeral) : Int := if m.negative then -(m.magnitude : Int) else m.magnitude

/-- **The numeral that a text begins with**: perhaps a minus, and the digits of the first
radix in an order that has some behind it. -/
def at? (order : List Radix) (format : NumberFormat) : Text → Option Numeral
  | '-' :: rest =>
    (firstDigits? (order.filter (·.isAllowed format)) rest).map fun e => ⟨true, e.1, e.2⟩
  | rest => (firstDigits? (order.filter (·.isAllowed format)) rest).map fun e => ⟨false, e.1, e.2⟩

end Numeral

/-! ## Magnitudes that fit -/

theorem digitRun?_eq_some_iff {isDigit : Char → Bool} {rest ds : Text} :
    digitRun? isDigit rest = some ds ↔ rest.takeWhile isDigit = ds ∧ ds ≠ [] := by
  rw [digitRun?]
  cases rest.takeWhile isDigit with
  | nil => simp
  | cons c cs =>
    refine ⟨fun h => ?_, fun h => congrArg some h.1⟩
    obtain rfl := Option.some.inj h
    exact ⟨rfl, List.cons_ne_nil c cs⟩

/-- The value of digits, if it fits. -/
def fit? (base : Nat) (ds : Text) : Option Nat :=
  if valueIn base ds ≤ maxMagnitude then some (valueIn base ds) else none

namespace Radix

/-- The magnitude in the radix at the beginning of a text, if it fits. -/
def fitting? (radix : Radix) (rest : Text) : Option (Text × Nat) :=
  (radix.digits? rest).bind fun ds => (fit? radix.base ds).map (radix.marker ++ ds, ·)

/-- How the magnitude in the radix is read. -/
def parser : Radix → Parser Nat
  | octal => Literal.octal
  | binary => Literal.binary
  | hexadecimal => Literal.hexadecimal
  | decimal => Literal.decimal

end Radix

/-- The first of the radices in which a magnitude fits. -/
def firstFitting? (radices : List Radix) (rest : Text) : Option (Text × Nat) :=
  radices.findSome? (·.fitting? rest)

/-- What an integer literal is read as. -/
def literal? (radices : List Radix) : Text → Option (Text × Int)
  | '-' :: rest => (firstFitting? radices rest).map fun e => ('-' :: e.1, -(e.2 : Int))
  | rest => (firstFitting? radices rest).map fun e => (e.1, (e.2 : Int))

/-- A magnitude in one of the radices, tried in order. -/
def magnitudeIn : List Radix → Parser Nat
  | [] => .fail numberMessage
  | [radix] => radix.parser
  | radix :: radices => radix.parser.orElse (magnitudeIn radices)

/-- **An integer literal whose radices are tried in some order.** -/
def numberIn (order : List Radix) (format : NumberFormat) : Parser Int :=
  Parser.position.bind fun start =>
    ((Parser.string "-").withDefault "").bind fun sign =>
      ((magnitudeIn (order.filter (·.isAllowed format))).mapMessageAt
        (fun _ => numberMessage) (fun _ => start)).map fun n : Nat =>
          if sign = "-" then -(n : Int) else n

theorem magnitude_eq (format : NumberFormat) :
    magnitude format = magnitudeIn (Radix.inOrder.filter (·.isAllowed format)) := by
  obtain ⟨binary, octal⟩ := format
  cases binary <;> cases octal <;> rfl

/-- The literal is the one whose radices are tried in their order. -/
theorem number_eq (format : NumberFormat) : number format = numberIn Radix.inOrder format := by
  have hcast {α β γ : Type} (p : Parser α) (f : α → β) (g : β → γ) :
      (p.bind fun a => Parser.succeed (f a)).map g = p.map fun a => g (f a) := by
    rw [Parser.map_eq_bind, Parser.bind_assoc, Parser.map_eq_bind]
    rfl
  unfold number numberIn
  rw [magnitude_eq]
  refine congrArg _ (funext fun start => congrArg _ (funext fun sign => hcast _ _ _))

/-! ## Reading with skipping -/

section Reading

open Descent.Parser (FindsAt)

variable {env : Env} {budget n start : Nat} {kept : Knots → Prop} {after : Nat → Nat}
variable {radices : List Radix}

/-- Nothing is skipped after a text, if the text stands at a position. -/
def StaysAfter (env : Env) (after : Nat → Nat) (start : Nat) (u : Text) : Prop :=
  ∀ v, env.from? start = some (u ++ v) → after (start + Text.size u) = start + Text.size u

/-- What may stand before the digits in one of the radices, if anything. -/
def markers (radices : List Radix) : List Text := (radices.map (·.marker)).filter (· ≠ [])

/-- What may stand before the digits of a literal with or without a sign, if anything. -/
def fronts (radices : List Radix) : List Text :=
  markers radices ++ ([] :: markers radices).map ('-' :: ·)

theorem mem_markers {u : Text} :
    u ∈ markers radices ↔ ∃ radix ∈ radices, radix.marker = u ∧ u ≠ [] := by
  rw [markers, List.mem_filter, List.mem_map, decide_eq_true_iff]
  constructor
  · rintro ⟨⟨radix, hmem, rfl⟩, hne⟩
    exact ⟨radix, hmem, rfl, hne⟩
  · rintro ⟨radix, hmem, rfl, hne⟩
    exact ⟨⟨radix, hmem, rfl⟩, hne⟩

theorem firstFitting?_cons (radix : Radix) (radices : List Radix) (rest : Text) :
    firstFitting? (radix :: radices) rest
      = (radix.fitting? rest).or (firstFitting? radices rest) := by
  rw [firstFitting?, List.findSome?_cons]
  cases radix.fitting? rest <;> rfl

theorem run1_eq (isDigit : Char → Bool) (rest : Text) :
    Reader.run1 isDigit rest = (digitRun? isDigit rest).map Match.here := by
  rw [Reader.run1, digitRun?]
  cases rest.takeWhile isDigit <;> rfl

/-- Digits are found where there are some and their value fits. -/
theorem findsAt_digits (hskip : env.SkipsBy budget kept after) (pattern : String)
    (isDigit : Char → Bool) (base n : Nat) :
    (digits pattern isDigit base).FindsAt env budget kept n (after n)
      (((env.from? (after n)).bind (digitRun? isDigit)).bind fun ds =>
        (fit? base ds).map (ds, ·)) := by
  have hrun := FindsAt.token (run1_eq isDigit) hskip ("Does not match pattern " ++ pattern) n
  generalize (env.from? (after n)).bind (digitRun? isDigit) = run at hrun ⊢
  cases run with
  | none => exact hrun.bind_none _
  | some ds =>
    have hvalue (m : Nat) : (if valueIn base ds ≤ maxMagnitude
        then Parser.succeed (valueIn base ds) else .fail numberMessage).FindsAt env budget kept m m
          ((fit? base ds).map ([], ·)) := by
      unfold fit?
      split
      · exact .succeed _
      · exact .fail _
    have hself : (fit? base ds).map (ds, ·)
        = ((fit? base ds).map (([] : Text), ·)).map fun e => (ds ++ e.1, e.2) := by
      rw [Option.map_map]
      exact congrArg (Option.map · _) (funext fun v => by simp)
    rw [Option.bind_some, hself]
    refine hrun.bind_some ?_
    simp only [String.toList_ofList]
    exact hvalue _

/-- **A marker and digits are found together** where nothing is skipped between them. -/
theorem findsAt_marked (hskip : env.SkipsBy budget kept after) (marker : String)
    (hstays : StaysAfter env after (after n) marker.toList) (pattern : String)
    (isDigit : Char → Bool) (base : Nat) :
    ((Parser.string marker).seqRight (digits pattern isDigit base)).FindsAt env budget kept n
      (after n) ((((env.from? (after n)).bind (Text.dropExact? marker.toList)).bind
        (digitRun? isDigit)).bind fun ds => (fit? base ds).map (marker.toList ++ ds, ·)) := by
  have hmarker := FindsAt.string hskip marker n
  cases hleft : (env.from? (after n)).bind (Text.dropExact? marker.toList) with
  | none =>
    rw [hleft] at hmarker
    exact hmarker.bind_none _
  | some left =>
    rw [hleft] at hmarker
    obtain ⟨rest, hrest, hdrop⟩ := Option.bind_eq_some_iff.mp hleft
    obtain rfl := Text.dropExact?_eq_some_iff.mp hdrop
    have hdigits := findsAt_digits hskip pattern isDigit base (after n + Text.size marker.toList)
    rw [hstays left hrest, Env.from?_add hrest] at hdigits
    have hboth := hmarker.bind_some (f := fun _ => digits pattern isDigit base) hdigits
    simp only [Option.map_bind, Function.comp_def, Option.map_map] at hboth
    exact hboth

theorem bind_fitting? (radix : Radix) (rest : Option Text) : rest.bind radix.fitting?
    = ((rest.bind (Text.dropExact? radix.marker)).bind (digitRun? radix.isDigit)).bind fun ds =>
        (fit? radix.base ds).map (radix.marker ++ ds, ·) := by
  cases rest <;> rfl

/-- **A radix finds its marker and its digits in one piece** where nothing is skipped after
the marker. -/
theorem Radix.findsAt (hskip : env.SkipsBy budget kept after) (radix : Radix)
    (hstays : radix.marker ≠ [] → StaysAfter env after (after n) radix.marker) :
    radix.parser.FindsAt env budget kept n (after n)
      ((env.from? (after n)).bind radix.fitting?) := by
  rw [bind_fitting?]
  cases radix with
  | octal => exact findsAt_marked hskip "0" (hstays (List.cons_ne_nil _ _)) _ _ _
  | binary => exact findsAt_marked hskip "0b" (hstays (List.cons_ne_nil _ _)) _ _ _
  | hexadecimal => exact findsAt_marked hskip "0x" (hstays (List.cons_ne_nil _ _)) _ _ _
  | decimal =>
    have hself : (env.from? (after n)).bind (Text.dropExact? decimal.marker)
        = env.from? (after n) := Option.bind_fun_some _
    rw [hself]
    exact findsAt_digits hskip _ _ _ n

theorem bind_firstFitting?_nil (rest : Option Text) : rest.bind (firstFitting? []) = none :=
  Option.bind_fun_none _

theorem bind_firstFitting?_cons (radix : Radix) (radices : List Radix) (rest : Option Text) :
    rest.bind (firstFitting? (radix :: radices))
      = (rest.bind radix.fitting?).or (rest.bind (firstFitting? radices)) := by
  cases rest with
  | none => rfl
  | some rest => exact firstFitting?_cons radix radices rest

/-- **The magnitude that is found** is the first one that fits: a radix is tried where
the one before it was. -/
theorem findsAt_magnitudeIn (hskip : env.SkipsBy budget kept after)
    (hstays : ∀ u ∈ markers radices, StaysAfter env after (after n) u) :
    (magnitudeIn radices).FindsAt env budget kept n (after n)
      ((env.from? (after n)).bind (firstFitting? radices)) := by
  induction radices with
  | nil =>
    rw [bind_firstFitting?_nil]
    exact .fail _
  | cons radix radices ih =>
    have hradix := radix.findsAt hskip fun hne =>
      hstays _ (mem_markers.mpr ⟨radix, List.mem_cons_self, rfl, hne⟩)
    have hrest := ih fun u hu => by
      obtain ⟨radix', hmem, hmarker⟩ := mem_markers.mp hu
      exact hstays u (mem_markers.mpr ⟨radix', List.mem_cons_of_mem radix hmem, hmarker⟩)
    rw [bind_firstFitting?_cons]
    cases radices with
    | nil =>
      -- the last radix has no failing alternative behind it
      rw [bind_firstFitting?_nil, Option.or_none]
      exact hradix
    | cons radix' radices => exact hradix.orElse hrest

/-- A text that does not begin with a minus is read without a sign. -/
theorem literal?_of_unsigned {rest : Text} (h : ∀ left, rest ≠ '-' :: left) :
    literal? radices rest = (firstFitting? radices rest).map fun e => (e.1, (e.2 : Int)) := by
  unfold literal?
  split
  · next left => exact absurd rfl (h left)
  · rfl

/-- Where nothing is skipped after the fronts of a literal, nothing is skipped after
the markers behind its sign. -/
theorem staysAfter_marker {rest : Text} (hrest : env.from? n = some ('-' :: rest))
    (hstays : ∀ u ∈ fronts radices, StaysAfter env after n u) :
    ∀ u ∈ markers radices, StaysAfter env after (n + 1) u := by
  intro u hu v hv
  have hfront : '-' :: u ∈ fronts radices :=
    List.mem_append_right _ (List.mem_map_of_mem (List.mem_cons_of_mem [] hu))
  have hbehind : env.from? (n + 1) = some rest := Env.from?_add (u := ['-']) hrest
  obtain rfl : rest = u ++ v := Option.some.inj (hbehind.symm.trans hv)
  have h := hstays _ hfront v hrest
  have hsize : n + Text.size ('-' :: u) = n + 1 + Text.size u := by
    rw [Nat.add_assoc]
    rfl
  rw [← hsize, h]

/-- A sign and a magnitude one after the other are the literal. -/
theorem numberIn_run_of_sign (order : List Radix) (format : NumberFormat) {e : Env} {m : Nat}
    {sign : String} {found : Option (Text × Nat)} {k k' : Knots} {log : List Event}
    (hsign : ((Parser.string "-").withDefault "").run env n budget k
      = .done (.ok e m sign) log k') (hk' : kept k')
    (hmagnitude : (magnitudeIn (order.filter (·.isAllowed format))).FindsAt e budget kept m start
      found) :
    ∃ log k'', (numberIn order format).run env n budget k
        = .done (Parser.foundReply e start numberMessage n (found.map fun x =>
            (x.1, if sign = "-" then -(x.2 : Int) else x.2))) log k'' ∧ kept k'' := by
  have hmessage : numberMessage.isEmpty = false := by decide
  obtain ⟨log', k'', hdone, hk''⟩ := hmagnitude.mapMessageAt hmessage n
    (fun x : Nat => if sign = "-" then -(x : Int) else x) hk'
  exact ⟨log ++ log', k'', (congrFun (congrFun (Eval.pure_bind _ _) budget) k).trans
    (Eval.bind_eq_done_iff.mpr ⟨_, _, _, _, hsign, hdone, rfl⟩), hk''⟩

/-- **What comes of an integer literal** at a position. The sign is found first; the
magnitude is invoked behind it, or, without a sign, once more at the position itself. -/
theorem numberIn_run (order : List Radix) (format : NumberFormat)
    (hskip : env.SkipsBy budget kept after) (n : Nat)
    (hstays : ∀ u ∈ fronts (order.filter (·.isAllowed format)), StaysAfter env after (after n) u)
    {k : Knots} (hk : kept k) :
    ∃ log k', (numberIn order format).run env n budget k = .done
        (Parser.foundReply env (after n) numberMessage n
          ((env.from? (after n)).bind (literal? (order.filter (·.isAllowed format))))) log k'
      ∧ kept k' := by
  have hminus := FindsAt.string hskip "-" n
  obtain ⟨log, k', hsign, hk'⟩ := hminus.withDefault "" hk
  by_cases hsigned : ∃ rest, env.from? (after n) = some ('-' :: rest)
  · obtain ⟨rest, hrest⟩ := hsigned
    have hbehind : env.from? (after n + 1) = some rest := Env.from?_add (u := ['-']) hrest
    have hstay : after (after n + 1) = after n + 1 :=
      hstays ['-'] (List.mem_append_right _ List.mem_cons_self) rest hrest
    have hmagnitude := findsAt_magnitudeIn (n := after n + 1) hskip
      (hstay.symm ▸ staysAfter_marker hrest hstays)
    rw [hstay, hbehind] at hmagnitude
    rw [hrest] at hsign ⊢
    obtain ⟨log, k'', hdone, hk''⟩ := numberIn_run_of_sign order format hsign hk' hmagnitude
    refine ⟨log, k'', ?_, hk''⟩
    rw [hdone, show after n + 1 = after n + Text.size ['-'] from rfl, Parser.foundReply_add,
      Option.map_map]
    rfl
  · have hunsigned : (env.from? (after n)).bind (Text.dropExact? "-".toList) = none := by
      refine Option.bind_eq_none_iff.mpr fun rest hrest => ?_
      rw [Option.eq_none_iff_forall_ne_some]
      rintro left hleft
      obtain rfl := Text.dropExact?_eq_some_iff.mp hleft
      exact hsigned ⟨left, hrest⟩
    rw [hunsigned] at hsign
    have hmagnitude := findsAt_magnitudeIn hskip fun u hu =>
      hstays u (List.mem_append_left _ hu)
    obtain ⟨log, k'', hdone, hk''⟩ := numberIn_run_of_sign order format hsign hk' hmagnitude
    refine ⟨log, k'', ?_, hk''⟩
    rw [hdone, Option.map_bind]
    congr 2
    refine Option.bind_congr fun rest hrest => ?_
    exact (literal?_of_unsigned fun left h => hsigned ⟨left, h ▸ hrest⟩).symm

end Reading

/-! ## Numerals and what is read -/

section Choosing

variable {radices : List Radix} {radix : Radix} {rest left ds : Text} {format : NumberFormat}

/-- A text is perhaps a minus and a text behind it. -/
theorem exists_sign (rest : Text) : ∃ negative behind,
    (∀ order format, Numeral.at? order format rest
      = (firstDigits? (order.filter (·.isAllowed format)) behind).map fun e =>
          ⟨negative, e.1, e.2⟩)
    ∧ ∀ radices, literal? radices rest = (firstFitting? radices behind).map fun e =>
        ((if negative then ['-'] else []) ++ e.1, if negative then -(e.2 : Int) else e.2) := by
  by_cases hsigned : ∃ behind, rest = '-' :: behind
  · obtain ⟨behind, rfl⟩ := hsigned
    exact ⟨true, behind, fun _ _ => rfl, fun _ => rfl⟩
  · have hunsigned : ∀ left, rest ≠ '-' :: left := not_exists.mp hsigned
    refine ⟨false, rest, fun order format => ?_, fun radices => literal?_of_unsigned hunsigned⟩
    unfold Numeral.at?
    split
    · next left => exact absurd rfl (hunsigned left)
    · rfl

theorem mem_of_firstDigits? (h : firstDigits? radices rest = some (radix, ds)) :
    radix ∈ radices ∧ radix.digits? rest = some ds := by
  obtain ⟨radix', hmem, hdigits⟩ := List.exists_of_findSome?_eq_some h
  obtain ⟨ds', hds, heq⟩ := Option.map_eq_some_iff.mp hdigits
  obtain ⟨rfl, rfl⟩ := Prod.mk.inj heq
  exact ⟨hmem, hds⟩

theorem Radix.fitting?_of_le (hdigits : radix.digits? rest = some ds)
    (h : valueIn radix.base ds ≤ maxMagnitude) :
    radix.fitting? rest = some (radix.marker ++ ds, valueIn radix.base ds) := by
  rw [fitting?, hdigits, Option.bind_some, fit?, if_pos h]
  rfl

theorem Radix.fitting?_of_lt (hdigits : radix.digits? rest = some ds)
    (h : maxMagnitude < valueIn radix.base ds) : radix.fitting? rest = none := by
  rw [fitting?, hdigits, Option.bind_some, fit?, if_neg (Nat.not_le.mpr h)]
  rfl

theorem Radix.fitting?_of_none (h : radix.digits? rest = none) : radix.fitting? rest = none := by
  rw [fitting?, h]
  rfl

/-- Nothing is read where no radix has digits. -/
theorem firstFitting?_of_none (h : firstDigits? radices rest = none) :
    firstFitting? radices rest = none := by
  refine List.findSome?_eq_none_iff.mpr fun radix hmem => Radix.fitting?_of_none ?_
  exact Option.map_eq_none_iff.mp (List.findSome?_eq_none_iff.mp h radix hmem)

/-- **The first digits are read if they fit**: no radix before has any. -/
theorem firstFitting?_of_le (h : firstDigits? radices rest = some (radix, ds))
    (hfits : valueIn radix.base ds ≤ maxMagnitude) :
    firstFitting? radices rest = some (radix.marker ++ ds, valueIn radix.base ds) := by
  induction radices with
  | nil => exact absurd h (by simp [firstDigits?])
  | cons first radices ih =>
    rw [firstFitting?_cons]
    rw [firstDigits?, List.findSome?_cons] at h
    cases hdigits : first.digits? rest with
    | none =>
      rw [hdigits] at h
      rw [Radix.fitting?_of_none hdigits]
      exact ih h
    | some ds' =>
      rw [hdigits] at h
      obtain ⟨rfl, rfl⟩ := Prod.mk.inj (Option.some.inj h)
      rw [Radix.fitting?_of_le hdigits hfits]
      rfl

/-- What is found among radices where all but one have nothing. -/
theorem findSome?_of_unique {α : Type} {f : Radix → Option α} (hmem : radix ∈ radices)
    (hother : ∀ r ∈ radices, r ≠ radix → f r = none) : radices.findSome? f = f radix := by
  cases hfound : f radix with
  | none =>
    refine List.findSome?_eq_none_iff.mpr fun r hr => ?_
    by_cases hne : r = radix
    · exact hne ▸ hfound
    · exact hother r hr hne
  | some e =>
    induction radices with
    | nil => exact absurd hmem List.not_mem_nil
    | cons first radices ih =>
      rw [List.findSome?_cons]
      by_cases hne : first = radix
      · rw [hne, hfound]
      · rw [hother first List.mem_cons_self hne]
        refine ih ?_ fun r hr => hother r (List.mem_cons_of_mem first hr)
        exact (List.mem_cons.mp hmem).resolve_left (Ne.symm hne)

/-- What is read where all radices but one have nothing that fits. -/
theorem firstFitting?_of_unique (hmem : radix ∈ radices)
    (hother : ∀ r ∈ radices, r ≠ radix → r.fitting? rest = none) :
    firstFitting? radices rest = radix.fitting? rest :=
  findSome?_of_unique hmem hother

/-! ## Markers that overlap -/

theorem Radix.digits?_eq_some_iff : radix.digits? rest = some ds
    ↔ ∃ left, rest = radix.marker ++ left ∧ left.takeWhile radix.isDigit = ds ∧ ds ≠ [] := by
  rw [digits?, Option.bind_eq_some_iff]
  exact exists_congr fun left =>
    and_congr Text.dropExact?_eq_some_iff digitRun?_eq_some_iff

theorem isDigit_of_isOctalDigit {c : Char} (h : isOctalDigit c = true) : c.isDigit = true := by
  simp only [isOctalDigit, Char.isDigit, Bool.and_eq_true, decide_eq_true_eq, Char.le_def,
    UInt32.le_iff_toNat_le, ge_iff_le] at h ⊢
  exact ⟨h.1, h.2.trans (by decide)⟩

/-- Where a letter stands behind a zero there are no octal digits, and one decimal digit. -/
theorem digits?_of_letter {c : Char} (hc : c.isDigit = false) (left : Text) :
    Radix.octal.digits? ('0' :: c :: left) = none
      ∧ Radix.decimal.digits? ('0' :: c :: left) = some ['0'] := by
  have hoctal : ¬isOctalDigit c = true := fun h =>
    absurd (isDigit_of_isOctalDigit h) (by simp [hc])
  refine ⟨?_, ?_⟩
  · show digitRun? isOctalDigit (c :: left) = none
    rw [digitRun?, List.takeWhile_cons_of_neg hoctal]
  · show digitRun? Char.isDigit ('0' :: c :: left) = some ['0']
    rw [digitRun?, List.takeWhile_cons_of_pos (by decide),
      List.takeWhile_cons_of_neg (by simp [hc])]

/-- Where octal digits stand behind a zero there is no letter, and there are at least as
many decimal digits. -/
theorem digits?_of_octal (h : Radix.octal.digits? rest = some ds) :
    Radix.binary.digits? rest = none ∧ Radix.hexadecimal.digits? rest = none
      ∧ ∃ more, Radix.decimal.digits? rest = some ('0' :: (ds ++ more)) := by
  obtain ⟨left, rfl, hrun, hne⟩ := Radix.digits?_eq_some_iff.mp h
  have hdigits : ∀ c ∈ ds, c.isDigit = true := fun c hc =>
    isDigit_of_isOctalDigit (List.mem_takeWhile_imp (hrun ▸ hc))
  have hmore : left.takeWhile Char.isDigit
      = ds ++ (left.dropWhile isOctalDigit).takeWhile Char.isDigit := by
    have hsplit := List.takeWhile_append_dropWhile (p := isOctalDigit) (l := left)
    rw [show left.takeWhile isOctalDigit = ds from hrun] at hsplit
    conv => lhs; rw [← hsplit, List.takeWhile_append_of_pos hdigits]
  have hletter {c : Char} (hc : c.isDigit = false) (cs : Text) : left ≠ c :: cs := by
    rintro rfl
    have hfirst : ¬isOctalDigit c = true := fun h =>
      absurd (isDigit_of_isOctalDigit h) (by simp [hc])
    exact hne (hrun.symm.trans (List.takeWhile_cons_of_neg hfirst))
  have hnone {radix : Radix} {c : Char} (hmarker : radix.marker = ['0', c])
      (hc : c.isDigit = false) : radix.digits? ('0' :: left) = none := by
    rw [Option.eq_none_iff_forall_ne_some]
    intro ds' hds'
    obtain ⟨left', heq, -⟩ := Radix.digits?_eq_some_iff.mp hds'
    rw [hmarker] at heq
    exact hletter hc left' (List.cons.inj heq).2
  refine ⟨hnone rfl (by decide), hnone rfl (by decide),
    (left.dropWhile isOctalDigit).takeWhile Char.isDigit, ?_⟩
  show digitRun? Char.isDigit ('0' :: left) = _
  rw [digitRun?, List.takeWhile_cons_of_pos (by decide), hmore]

/-- Where binary or hexadecimal digits are marked, the only other digit is the zero. -/
theorem digits?_of_marked (h : radix.digits? rest = some ds)
    (hradix : radix = .binary ∨ radix = .hexadecimal) :
    (∀ r, r ≠ radix → r ≠ .decimal → r.digits? rest = none)
      ∧ Radix.decimal.digits? rest = some ['0'] := by
  obtain ⟨left, rfl, -⟩ := Radix.digits?_eq_some_iff.mp h
  obtain rfl | rfl := hradix
  · obtain ⟨hoctal, hdecimal⟩ := digits?_of_letter (c := 'b') (by decide) left
    refine ⟨fun r hne hne' => ?_, hdecimal⟩
    cases r with
    | octal => exact hoctal
    | hexadecimal => rfl
    | binary => exact absurd rfl hne
    | decimal => exact absurd rfl hne'
  · obtain ⟨hoctal, hdecimal⟩ := digits?_of_letter (c := 'x') (by decide) left
    refine ⟨fun r hne hne' => ?_, hdecimal⟩
    cases r with
    | octal => exact hoctal
    | binary => rfl
    | hexadecimal => exact absurd rfl hne
    | decimal => exact absurd rfl hne'

/-- The decimal radix is the last one that is tried. -/
theorem filter_inOrder (format : NumberFormat) : Radix.inOrder.filter (·.isAllowed format)
    = Radix.beforeDecimal.filter (·.isAllowed format) ++ [.decimal] :=
  List.filter_append Radix.beforeDecimal [Radix.decimal]

/-- Decimal digits are the first ones only where no other radix has any. -/
theorem digits?_of_decimal
    (h : firstDigits? (Radix.inOrder.filter (·.isAllowed format)) rest = some (.decimal, ds))
    (hallowed : radix.isAllowed format = true) (hne : radix ≠ .decimal) :
    radix.digits? rest = none := by
  rw [filter_inOrder, firstDigits?, List.findSome?_append] at h
  cases hbefore : firstDigits? (Radix.beforeDecimal.filter (·.isAllowed format)) rest with
  | some e =>
    rw [← firstDigits?, hbefore, Option.some_or] at h
    obtain rfl := Option.some.inj h
    have hmem := (List.mem_filter.mp (mem_of_firstDigits? hbefore).1).1
    exact absurd hmem (by decide)
  | none =>
    have hmem : radix ∈ Radix.beforeDecimal.filter (·.isAllowed format) :=
      List.mem_filter.mpr ⟨radix.mem_beforeDecimal hne, hallowed⟩
    exact Option.map_eq_none_iff.mp (List.findSome?_eq_none_iff.mp hbefore radix hmem)

/-! ## Digits that do not fit -/

theorem foldl_digits_le {base base' a b : Nat} (hbase : base ≤ base') (hab : a ≤ b) (ds : Text) :
    ds.foldl (fun n c => n * base + digitValue c) a
      ≤ ds.foldl (fun n c => n * base' + digitValue c) b := by
  induction ds generalizing a b with
  | nil => exact hab
  | cons c ds ih =>
    rw [List.foldl_cons, List.foldl_cons]
    exact ih (Nat.add_le_add_right (Nat.mul_le_mul hab hbase) _)

theorem le_foldl_digits {base : Nat} (hbase : 0 < base) (a : Nat) (ds : Text) :
    a ≤ ds.foldl (fun n c => n * base + digitValue c) a := by
  induction ds generalizing a with
  | nil => exact Nat.le_refl a
  | cons c ds ih =>
    rw [List.foldl_cons]
    exact (Nat.le_add_right_of_le (Nat.le_mul_of_pos_right a hbase)).trans (ih _)

/-- **More digits in a larger radix are worth more.** -/
theorem valueIn_octal_le (ds more : Text) : valueIn 8 ds ≤ valueIn 10 ('0' :: (ds ++ more)) := by
  rw [valueIn, valueIn, List.foldl_cons, List.foldl_append]
  exact (foldl_digits_le (by decide) (by decide) ds).trans (le_foldl_digits (by decide) _ more)

/-- **Digits that do not fit** are rejected, but where a letter marks them the zero of
the marker is read instead. -/
theorem firstFitting?_of_lt
    (h : firstDigits? (Radix.inOrder.filter (·.isAllowed format)) rest = some (radix, ds))
    (hlarge : maxMagnitude < valueIn radix.base ds) :
    firstFitting? (Radix.inOrder.filter (·.isAllowed format)) rest
      = if radix = .binary ∨ radix = .hexadecimal then some (['0'], 0) else none := by
  obtain ⟨-, hdigits⟩ := mem_of_firstDigits? h
  have hdecimal : Radix.decimal ∈ Radix.inOrder.filter (·.isAllowed format) :=
    List.mem_filter.mpr ⟨by decide, rfl⟩
  have hself := Radix.fitting?_of_lt hdigits hlarge
  by_cases hmarked : radix = .binary ∨ radix = .hexadecimal
  · obtain ⟨hother, hzero⟩ := digits?_of_marked hdigits hmarked
    rw [if_pos hmarked, firstFitting?_of_unique hdecimal fun r _ hne => ?_,
      Radix.fitting?_of_le hzero (by decide)]
    · rfl
    · by_cases hr : r = radix
      · exact hr ▸ hself
      · exact Radix.fitting?_of_none (hother r hr hne)
  · rw [if_neg hmarked]
    cases radix with
    | octal =>
      obtain ⟨hbinary, hhexadecimal, more, hall⟩ := digits?_of_octal hdigits
      rw [firstFitting?_of_unique hdecimal fun r _ hne => ?_]
      · exact Radix.fitting?_of_lt hall (hlarge.trans_le (valueIn_octal_le ds more))
      · cases r with
        | octal => exact hself
        | binary => exact Radix.fitting?_of_none hbinary
        | hexadecimal => exact Radix.fitting?_of_none hhexadecimal
        | decimal => exact absurd rfl hne
    | decimal =>
      rw [firstFitting?_of_unique hdecimal fun r hr hne =>
        Radix.fitting?_of_none (digits?_of_decimal h (List.mem_filter.mp hr).2 hne)]
      exact hself
    | binary => exact absurd (.inl rfl) hmarked
    | hexadecimal => exact absurd (.inr rfl) hmarked

/-- **Binary and octal digits do not begin the same text**, so what is looked for among
the radices is found in either order. -/
theorem findSome?_binaryFirst {α : Type} {f : Radix → Option α}
    (h : ∀ radix, radix.digits? rest = none → f radix = none) (format : NumberFormat) :
    (Radix.binaryFirst.filter (·.isAllowed format)).findSome? f
      = (Radix.inOrder.filter (·.isAllowed format)).findSome? f := by
  have hnone : f .octal = none ∨ f .binary = none := by
    cases hoctal : Radix.octal.digits? rest with
    | none => exact .inl (h _ hoctal)
    | some ds => exact .inr (h _ (digits?_of_octal hoctal).1)
  obtain ⟨binary, octal⟩ := format
  cases binary <;> cases octal
  · rfl
  · rfl
  · rfl
  · show [Radix.binary, .octal, .hexadecimal, .decimal].findSome? f
      = [Radix.octal, .binary, .hexadecimal, .decimal].findSome? f
    obtain hnone | hnone := hnone <;> simp only [List.findSome?_cons, hnone]

end Choosing

/-! ## What integer literals read -/

variable {env : Env} {position : Nat} {rest : Text}

/-- With nothing to skip, what comes of a literal is told by the text. -/
theorem numberIn_run_bare (order : List Radix) (format : NumberFormat) (hskip : env.skip = none)
    (hrest : env.from? position = some rest) (budget : Nat) (k : Knots) :
    ∃ log, (numberIn order format).run env position budget k
      = .done (Parser.foundReply env position numberMessage position
          (literal? (order.filter (·.isAllowed format)) rest)) log k := by
  have hstates : env.SkipsBy budget (· = k) id := Env.skipsBy_id hskip
  obtain ⟨log, k', hdone, rfl⟩ :=
    numberIn_run order format hstates position (fun _ _ _ _ => rfl) rfl
  rw [id, hrest, Option.bind_some] at hdone
  exact ⟨log, hdone⟩

/-- The value of a magnitude that fits is a word of 64 bits, with either sign. -/
theorem Numeral.value_isWord (m : Numeral) (h : m.magnitude ≤ maxMagnitude) :
    Int64.minValue.toInt ≤ m.value ∧ m.value ≤ Int64.maxValue.toInt := by
  have hmax : Int64.maxValue.toInt = maxMagnitude := by decide
  have hmin : Int64.minValue.toInt = -(maxMagnitude : Int) - 1 := by decide
  rw [hmax, hmin, value]
  split <;> omega

/-- **A numeral that fits is read as a whole.** A literal is the numeral that its text
begins with: it fails about the position of the sign if there is none, and if the
magnitude fits it ends after the digits and has the value, which is a word of 64 bits.
Whether binary or octal digits are tried first makes no difference. -/
theorem number_reads_numeral (format : NumberFormat) (hskip : env.skip = none)
    (hrest : env.from? position = some rest) (budget : Nat) (k : Knots) :
    (Numeral.at? Radix.inOrder format rest = none →
      ∃ log, (number format).run env position budget k
        = .done (.fail numberMessage (some position)) log k)
    ∧ (∀ m, Numeral.at? Radix.inOrder format rest = some m → m.magnitude ≤ maxMagnitude →
      (∃ log, (number format).run env position budget k
        = .done (.ok env (position + Text.size m.text) m.value) log k)
      ∧ Int64.minValue.toInt ≤ m.value ∧ m.value ≤ Int64.maxValue.toInt)
    ∧ Numeral.at? Radix.binaryFirst format rest = Numeral.at? Radix.inOrder format rest
    ∧ ∃ reply log log', (number format).run env position budget k = .done reply log k
      ∧ (numberIn Radix.binaryFirst format).run env position budget k = .done reply log' k := by
  obtain ⟨negative, behind, hat, hliteral⟩ := exists_sign rest
  obtain ⟨log, hrun⟩ := numberIn_run_bare Radix.inOrder format hskip hrest budget k
  obtain ⟨log', hrun'⟩ := numberIn_run_bare Radix.binaryFirst format hskip hrest budget k
  rw [← number_eq, hliteral] at hrun
  rw [hliteral] at hrun'
  refine ⟨fun hnone => ⟨log, ?_⟩, fun m hm hfits => ⟨⟨log, ?_⟩, ?_⟩, ?_, ?_⟩
  · rw [hat, Option.map_eq_none_iff] at hnone
    rw [hrun, firstFitting?_of_none hnone]
    rfl
  · rw [hat] at hm
    obtain ⟨⟨radix, ds⟩, hfirst, rfl⟩ := Option.map_eq_some_iff.mp hm
    rw [hrun, firstFitting?_of_le hfirst hfits]
    rfl
  · exact m.value_isWord hfits
  · have hnone (radix : Radix) (h : radix.digits? behind = none) :
        (radix.digits? behind).map (radix, ·) = none := by rw [h, Option.map_none]
    rw [hat, hat]
    exact congrArg _ (findSome?_binaryFirst hnone format)
  · refine ⟨_, log, log', hrun, ?_⟩
    have hfirst : firstFitting? (Radix.binaryFirst.filter (·.isAllowed format)) behind
        = firstFitting? (Radix.inOrder.filter (·.isAllowed format)) behind :=
      findSome?_binaryFirst (fun radix h => Radix.fitting?_of_none h) format
    rw [hrun', hfirst]

/-- A numeral in the middle of a text. -/
theorem number_reads_numeral_signed :
    let env := Env.new "=-0x1F".toList
    ∃ log, (number {}).run env 1 0 .initial = .done (.ok env 6 (-31)) log .initial := by
  intro env
  have hat : Numeral.at? Radix.inOrder {} "-0x1F".toList
      = some ⟨true, .hexadecimal, ['1', 'F']⟩ := by decide
  exact ((number_reads_numeral {} rfl (by decide) 0 .initial).2.1 _ hat (by decide)).1

/-- **A numeral that does not fit** is rejected if its digits are octal or decimal. If
they are binary or hexadecimal, the zero of their marker is read instead of them. -/
theorem number_too_large (format : NumberFormat) (hskip : env.skip = none)
    (hrest : env.from? position = some rest) {m : Numeral}
    (hm : Numeral.at? Radix.inOrder format rest = some m) (hlarge : maxMagnitude < m.magnitude)
    (budget : Nat) (k : Knots) :
    ∃ log, (number format).run env position budget k
      = .done (if m.radix = .binary ∨ m.radix = .hexadecimal
          then .ok env (position + Text.size m.sign + 1) 0
          else .fail numberMessage (some position)) log k := by
  obtain ⟨negative, behind, hat, hliteral⟩ := exists_sign rest
  obtain ⟨log, hrun⟩ := numberIn_run_bare Radix.inOrder format hskip hrest budget k
  rw [hat] at hm
  obtain ⟨⟨radix, ds⟩, hfirst, rfl⟩ := Option.map_eq_some_iff.mp hm
  rw [← number_eq, hliteral, firstFitting?_of_lt hfirst hlarge] at hrun
  refine ⟨log, ?_⟩
  rw [hrun]
  by_cases hmarked : radix = .binary ∨ radix = .hexadecimal
  · rw [if_pos hmarked, if_pos hmarked]
    cases negative <;> rfl
  · rw [if_neg hmarked, if_neg hmarked]
    rfl

/-- The digits are gone without a trace, and the sign with them. -/
theorem number_too_large_signed :
    let env := Env.new "-0x8000000000000000".toList
    ∃ log, (number {}).run env 0 0 .initial = .done (.ok env 2 0) log .initial := by
  intro env
  have hat : Numeral.at? Radix.inOrder {} "-0x8000000000000000".toList
      = some ⟨true, .hexadecimal, "8000000000000000".toList⟩ := by decide
  exact number_too_large {} rfl rfl hat (by decide) 0 .initial

/-- A numeral that does not fit, and that is not rejected. -/
theorem number_too_large_hexadecimal :
    let env := Env.new "0x8000000000000000".toList
    (∃ m, Numeral.at? Radix.inOrder {} env.subject = some m ∧ maxMagnitude < m.magnitude)
    ∧ (∃ log, (number {}).run env 0 0 .initial = .done (.ok env 1 0) log .initial)
    ∧ ¬∃ log k, (number {}).run env 0 0 .initial
        = .done (.fail numberMessage (some 0)) log k := by
  intro env
  have hat : Numeral.at? Radix.inOrder {} env.subject
      = some ⟨false, .hexadecimal, "8000000000000000".toList⟩ := by decide
  have hliteral : literal? (Radix.inOrder.filter (·.isAllowed {})) env.subject
      = some (['0'], 0) := by decide
  have hrest : env.from? 0 = some env.subject := by decide
  obtain ⟨log, hzero⟩ := numberIn_run_bare Radix.inOrder {} rfl hrest 0 .initial
  rw [← number_eq, hliteral] at hzero
  refine ⟨⟨_, hat, by decide⟩, ⟨log, hzero⟩, ?_⟩
  rintro ⟨log', k, hfail⟩
  rw [hzero] at hfail
  cases hfail

/-- **A literal is one token** where nothing is skipped after its sign and its marker:
it is read at a position as it is read after what is skipped there, in the same
environment with nothing to skip. -/
theorem number_one_token (format : NumberFormat) {budget : Nat} {kept : Knots → Prop}
    {after : Nat → Nat} (hskip : env.SkipsBy budget kept after) (position : Nat)
    (hstays : ∀ u ∈ fronts (Radix.inOrder.filter (·.isAllowed format)),
      StaysAfter env after (after position) u)
    {k : Knots} (hk : kept k) (stop : Nat) (value : Int) :
    (∃ log k', (number format).run env position budget k = .done (.ok env stop value) log k')
      ↔ ∃ log k', (number format).run env.withoutSkip (after position) budget k
          = .done (.ok env.withoutSkip stop value) log k' := by
  have hbare : env.withoutSkip.SkipsBy budget kept id := Env.skipsBy_id rfl
  obtain ⟨log, k', hdone, -⟩ := numberIn_run Radix.inOrder format hskip position hstays hk
  obtain ⟨log', k'', hdone', -⟩ :=
    numberIn_run Radix.inOrder format hbare (after position) (fun _ _ _ _ => rfl) hk
  rw [number_eq, hdone, hdone']
  simp only [Outcome.done.injEq, exists_and_left, exists_eq', and_true, id,
    Parser.foundReply_eq_ok_iff]
  rfl

/-- Room before a literal and behind it, and none inside. -/
theorem number_one_token_room :
    let env : Env := ⟨" -0x1F 2".toList,
      some (Parser.token (Reader.run1 (· == ' ')) "No room").scan, none⟩
    ∃ log k', (number {}).run env 0 0 .initial = .done (.ok env 6 (-31)) log k' := by
  intro env
  have hskip : env.SkipsBy 0 (fun _ => True) (env.skipped (Reader.run1 (· == ' '))) :=
    Env.skipsBy_token rfl
  have hfronts : ∀ u ∈ fronts (Radix.inOrder.filter (·.isAllowed {})),
      env.skipped (Reader.run1 (· == ' ')) (1 + Text.size u) = 1 + Text.size u := by decide
  have hstays : ∀ u ∈ fronts (Radix.inOrder.filter (·.isAllowed {})),
      StaysAfter env (env.skipped (Reader.run1 (· == ' '))) 1 u := fun u hu _ _ => hfronts u hu
  have hbare : ∃ log k', (number {}).run env.withoutSkip 1 0 .initial
      = .done (.ok env.withoutSkip 6 (-31)) log k' := ⟨_, _, rfl⟩
  exact (number_one_token {} hskip 0 hstays trivial 6 (-31)).mpr hbare

/-- Room inside a literal: what is read is not there without the room. -/
theorem number_joins_tokens :
    let env : Env := ⟨"- 5".toList,
      some (Parser.token (Reader.run1 (· == ' ')) "No room").scan, none⟩
    env.skipFrom 0 0 .initial = .done 0 [] .initial
    ∧ (∃ log, (number {}).run env 0 0 .initial = .done (.ok env 3 (-5)) log .initial)
    ∧ ∃ log, (number {}).run env.withoutSkip 0 0 .initial
        = .done (.fail numberMessage (some 0)) log .initial := by
  intro env
  exact ⟨rfl, ⟨_, rfl⟩, ⟨_, rfl⟩⟩

end Literal

end Descent
