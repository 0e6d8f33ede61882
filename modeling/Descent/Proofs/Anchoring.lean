import Descent.Proofs.Boundary
import Descent.Proofs.Enclosing
import Descent.Proofs.Tokens

/-!
# Patterns match where they are asked for

A pattern of a grammar is read in parentheses behind the start of the text. What it matches
then begins where the search begins, so a match is a token: it stands right where skipping has
ended (`Parser.pattern_anchored`).

**Where a match begins.** A program that is anchored starts its threads at the beginning of the
text, and no thread forgets where it began (`Regex.Program.searchFrom_start`). A row whose first
part asks for the start of the text becomes an anchored program (`Regex.compile_anchored`). So
the question is what becomes of a text in its parentheses.

**What a text becomes.** A text that is a pattern by itself is the one group behind the start of
the text (`Regex.read_anchor`), whatever alternatives, flags and comments it has. A text that is
no pattern by itself may close the parenthesis it is put in and open another. If what stands
behind is part of the same row, it is still behind the start of the text. If an alternative stands
behind, it is not: then the whole is a choice (`Regex.read_anchor_shape`), of which only the first
branch is bound to the start. `a)|(?:b` is such a text, and its second branch matches further
on (`Parser.pattern_matches_further_on`).
-/

namespace Descent

namespace Regex

/-! ## Threads of an anchored program -/

/-- All threads began at the start of the text. -/
def FromStart (ts : List Thread) : Prop := ∀ t ∈ ts, t.start = 0

theorem FromStart.nil : FromStart [] := fun _ h => nomatch h

theorem FromStart.cons {t : Thread} {ts : List Thread} (ht : t.start = 0) (hts : FromStart ts) :
    FromStart (t :: ts) := List.forall_mem_cons.mpr ⟨ht, hts⟩

namespace Program

variable (p : Program)

/-- Following a way adds threads with its own beginning. -/
theorem follow_fromStart (holds : Look → Bool) (steps i : Nat) {place : Place}
    (h : FromStart place.threads) : FromStart (p.follow holds 0 steps i place).threads := by
  induction steps generalizing i place with
  | zero => exact h
  | succ steps ih =>
    rw [follow]
    split
    · exact h
    · split
      · split
        · exact ih _ h
        · exact h
      · exact List.foldlRecOn (motive := fun place : Place => FromStart place.threads) _ _ h
          fun place hplace next _ => ih next hplace
      · exact .cons rfl h
      · exact h

/-- The threads of a place began where the threads that reached it began. -/
theorem settle_fromStart (holds : Look → Bool) {ts : List Thread} (h : FromStart ts) :
    FromStart (p.settle holds ts) := by
  have hplace : FromStart (ts.foldl
      (fun place t => p.follow holds t.start p.nodes.size t.node place)
      ⟨Array.replicate p.nodes.size false, []⟩).threads := by
    refine List.foldlRecOn (motive := fun place : Place => FromStart place.threads) _ _ .nil
      fun place hplace t ht => ?_
    rw [h t ht]
    exact p.follow_fromStart holds _ _ hplace
  exact fun t ht => hplace t (List.mem_reverse.mp ht)

/-- Taking a character keeps the beginnings, and a match has the one of its thread. -/
theorem advance_fromStart (c : Option Char) {ts : List Thread} (h : FromStart ts) :
    FromStart (p.advance c ts).1 ∧ ∀ start ∈ (p.advance c ts).2, start = 0 := by
  induction ts with
  | nil => exact ⟨.nil, fun _ h => nomatch h⟩
  | cons t ts ih =>
    obtain ⟨ht, hts⟩ := List.forall_mem_cons.mp h
    obtain ⟨hthreads, hhit⟩ := ih hts
    rw [advance]
    split
    · exact ⟨.nil, fun start h => (Option.mem_some.mp h) ▸ ht⟩
    · split
      next threads hit hrest =>
        rw [hrest] at hthreads hhit
        split
        · exact ⟨.cons ht hthreads, hhit⟩
        · exact ⟨hthreads, hhit⟩
    · exact ⟨hthreads, hhit⟩

variable {p}

/-- The search begins a thread at the first place only. -/
theorem visit_fromStart (hanchored : p.anchored = true) (before after : Option Char) (index : Nat)
    {ts : List Thread} (hts : FromStart ts) {best : Option (Nat × Nat)}
    (hbest : ∀ found ∈ best, found.1 = 0) :
    FromStart (p.visit before after index ts best).1
      ∧ ∀ found ∈ (p.visit before after index ts best).2, found.1 = 0 := by
  have harrivals : FromStart (if best.isNone && (index = 0 || !p.anchored)
      then ts ++ [⟨p.start, index⟩] else ts) := by
    split
    · next hbegin =>
      simp only [hanchored, Bool.not_true, Bool.or_false, Bool.and_eq_true,
        decide_eq_true_eq] at hbegin
      rw [hbegin.2]
      exact List.forall_mem_append.mpr ⟨hts, FromStart.cons rfl .nil⟩
    · exact hts
  unfold visit
  generalize (if best.isNone && (index = 0 || !p.anchored) then ts ++ [⟨p.start, index⟩] else ts)
    = arrivals at harrivals
  obtain ⟨hthreads, hhit⟩ := p.advance_fromStart after
    (p.settle_fromStart (Look.holds before after) harrivals)
  cases arrivals with
  | nil => exact ⟨.nil, hbest⟩
  | cons t arrivals =>
    refine ⟨hthreads, fun found hfound => ?_⟩
    obtain hfound | ⟨-, hfound⟩ := Option.or_eq_some_iff.mp hfound
    · obtain ⟨start, hstart, rfl⟩ := Option.map_eq_some_iff.mp hfound
      exact hhit start hstart
    · exact hbest found hfound

theorem searchFrom_start (hanchored : p.anchored = true) (before : Option Char) (index : Nat)
    {ts : List Thread} (hts : FromStart ts) {best : Option (Nat × Nat)}
    (hbest : ∀ found ∈ best, found.1 = 0) (text : Text) :
    ∀ found ∈ p.searchFrom before index ts best text, found.1 = 0 := by
  induction text generalizing before index ts best with
  | nil => exact (visit_fromStart hanchored before none index hts hbest).2
  | cons c cs ih =>
    obtain ⟨hthreads, hfound⟩ := visit_fromStart hanchored before (some c) index hts hbest
    rw [searchFrom]
    split
    · next found heq =>
      rw [heq] at hfound
      exact hfound
    · rw [if_pos hanchored]
      exact fun _ h => nomatch h
    · next heq =>
      rw [heq] at hthreads hfound
      exact ih _ _ hthreads hfound

/-- **An anchored program matches where it begins** or not at all. -/
theorem passed_find? (hanchored : p.anchored = true) {text : Text} {m : Match}
    (h : p.find? text = some m) : m.passed = [] := by
  obtain ⟨found, hfound, rfl⟩ := Option.map_eq_some_iff.mp h
  have hstart := searchFrom_start hanchored none 0 .nil (fun found h => by simp at h) text found
    hfound
  show text.take found.1 = []
  rw [hstart]
  rfl

end Program

/-! ## Terms that begin with the start of the text -/

theorem Term.isAnchored_concatOf (ts : List Term) :
    (Term.concatOf (.look .start :: ts)).isAnchored = true := by
  have hjoined : joinLiterals ((Term.look .start :: ts).flatMap parts)
      = .look .start :: joinLiterals (ts.flatMap parts) := rfl
  rw [concatOf, hjoined]
  cases joinLiterals (ts.flatMap parts) <;> rfl

theorem Syntax.isAnchored_of_toTerm {flags : Flags} {ys : List Syntax} {r : Term × Flags}
    (h : (Syntax.concat (.assertion .startText :: ys)).toTerm flags = .ok r) :
    r.1.isAnchored = true := by
  rw [Syntax.toTerm, Syntax.toTerms] at h
  obtain ⟨row, hrow, h⟩ := except_bind_eq_ok_iff.mp h
  obtain ⟨first, hfirst, hrow⟩ := except_bind_eq_ok_iff.mp hrow
  obtain ⟨rest, -, hrow⟩ := except_bind_eq_ok_iff.mp hrow
  rw [Syntax.toTerm] at hfirst
  cases hfirst
  cases hrow
  cases h
  exact Term.isAnchored_concatOf rest.1

theorem compile_anchored {text : Text} {program : Program} {ys : List Syntax}
    (hread : Syntax.read text = .ok (.concat (.assertion .startText :: ys)))
    (h : compile text = .ok program) : program.anchored = true := by
  obtain ⟨syn, hsyn, h⟩ := except_bind_eq_ok_iff.mp h
  rw [hread] at hsyn
  cases hsyn
  obtain ⟨r, hterm, h⟩ := except_bind_eq_ok_iff.mp h
  have hanchored := Syntax.isAnchored_of_toTerm hterm
  dsimp only at h
  split at h
  · cases h
  · cases h
    exact hanchored

/-! ## Patterns in their parentheses -/

/-- The parentheses are opened in two steps: the start of the text, and the group. -/
theorem readBranches_anchor (n : Nat) (text : Text) :
    readBranches (n + 2) [] [] ⟨anchor text, false, []⟩
      = (do
          let inner ← readBranches n [] []
          if ← Read.atEnd then throw .unclosedGroup
          Read.bump
          modify fun s => { s with extended := false }
          readBranches n [] [.group [] inner, .assertion .startText] : Read Syntax)
        ⟨text ++ [')'], false, []⟩ :=
  rfl

/-- What a text is was read as alternatives, and nothing was left. -/
theorem readBranches_of_read {text : Text} {syn : Syntax} (h : Syntax.read text = .ok syn) :
    ∃ t, readBranches (text.length + 1) [] [] ⟨text, false, []⟩ = .ok (syn, t) ∧ t.rest = [] := by
  obtain ⟨⟨read, t⟩, hread, h⟩ := except_bind_eq_ok_iff.mp h
  dsimp only at h
  split at h
  · cases h
  · next hrest =>
    split at h
    · cases h
    · cases h
      exact ⟨t, hread, by simpa using hrest⟩

/-- What is read from a text in its parentheses: what stands in them, and how it goes on
behind them. -/
theorem readBranches_of_read_anchor {text : Text} {whole : Syntax}
    (h : Syntax.read (anchor text) = .ok whole) :
    ∃ inner s t, readBranches (text.length + 5) [] [] ⟨text ++ [')'], false, []⟩ = .ok (inner, s)
      ∧ s.rest ≠ []
      ∧ readBranches (text.length + 5) [] [.group [] inner, .assertion .startText]
          ⟨s.rest.tail, false, s.names⟩ = .ok (whole, t)
      ∧ t.rest = [] := by
  obtain ⟨t, hread, ht⟩ := readBranches_of_read h
  have hlength : (anchor text).length + 1 = text.length + 5 + 2 := by simp [anchor]
  rw [hlength, readBranches_anchor] at hread
  obtain ⟨inner, ⟨rest, extended, names⟩, hinner, hread⟩ := Read.bind_eq_ok_iff.mp hread
  cases rest with
  | nil => cases hread
  | cons c cs => exact ⟨inner, ⟨c :: cs, extended, names⟩, t, hinner, by simp, hread, ht⟩

/-- **A pattern stays one in its parentheses.** -/
theorem read_anchor {text : Text} {syn whole : Syntax} (h : Syntax.read text = .ok syn)
    (hwhole : Syntax.read (anchor text) = .ok whole) :
    whole = .concat [.assertion .startText, .group [] syn] := by
  obtain ⟨t, hread, ht⟩ := readBranches_of_read h
  obtain ⟨inner, s, u, hinner, hs, hrest, -⟩ := readBranches_of_read_anchor hwhole
  have hopen : Cursor.Enclosed ⟨text, false, []⟩ ⟨text ++ [')'], false, []⟩ :=
    ⟨.inl rfl, rfl, rfl⟩
  have hsteps : text.length + 1 ≤ text.length + 5 := by omega
  obtain ⟨t', hread', henclosed⟩ := readBranches_refines hsteps [] [] hopen hread
  rw [hinner] at hread'
  cases hread'
  -- If a comment has taken the parenthesis in, the whole is not a pattern.
  obtain hempty | hparen := henclosed.rest_nil ht
  · exact absurd hempty hs
  · rw [hparen] at hrest
    cases hrest
    rfl

/-! ## What follows the parentheses -/

/-- Whatever is read satisfies a property. -/
def Read.Yields {α : Type} (P : α → Prop) (x : Read α) : Prop :=
  ∀ ⦃s a t⦄, x s = .ok (a, t) → P a

namespace Read.Yields

variable {α β : Type} {P : α → Prop} {Q : β → Prop} {x y : Read α} {f : α → Read β}

theorem bind (hx : Yields P x) (hf : ∀ a, P a → Yields Q (f a)) : Yields Q (x >>= f) := by
  intro s b t h
  obtain ⟨a, u, hdone, hrest⟩ := bind_eq_ok_iff.mp h
  exact hf a (hx hdone) hrest

/-- What is read first does not matter. -/
theorem bind_any (hf : ∀ a, Yields Q (f a)) : Yields Q (x >>= f) :=
  bind (P := fun _ => True) (fun _ _ _ _ => trivial) fun a _ => hf a

theorem pure {a : α} (h : P a) : Yields P (Pure.pure a) := by
  intro s b t hdone
  obtain ⟨rfl, -⟩ : a = b ∧ s = t := by simpa using Except.ok.inj hdone
  exact h

theorem throw (e : SyntaxError) : Yields P (MonadExcept.throw e) := fun _ _ _ h => nomatch h

theorem ite {p : Prop} [Decidable p] (hx : Yields P x) (hy : Yields P y) :
    Yields P (if p then x else y) := by
  split
  · exact hx
  · exact hy

end Read.Yields

theorem popRepeated_yields (parts : List Syntax) :
    Read.Yields (fun r => parts = r.1 :: r.2) (popRepeated parts) := by
  unfold popRepeated
  split
  iterate 3 exact .throw _
  · exact .pure rfl

/-- **A choice, or a row that begins with the start of the text.** -/
def Syntax.ChoiceOrBound (syn : Syntax) : Prop :=
  (∃ branches, syn = .alternation branches) ∨ ∃ rest, syn = .concat (.assertion .startText :: rest)

/-- **Where reading goes on behind the start of the text**: in a row that begins with it, or
behind an alternative. -/
def Behind (branches parts : List Syntax) : Prop :=
  branches ≠ [] ∨ ∃ part between, parts = part :: (between ++ [.assertion .startText])

namespace Behind

variable {branches parts : List Syntax}

theorem push (h : Behind branches parts) (part : Syntax) : Behind branches (part :: parts) := by
  obtain hbranches | ⟨last, between, rfl⟩ := h
  · exact .inl hbranches
  · exact .inr ⟨part, last :: between, rfl⟩

/-- A repetition takes the place of the part that is repeated. -/
theorem replace {part : Syntax} (h : Behind branches (part :: parts)) (part' : Syntax) :
    Behind branches (part' :: parts) := by
  obtain hbranches | ⟨last, between, hparts⟩ := h
  · exact .inl hbranches
  · exact .inr ⟨part', between, by rw [(List.cons.inj hparts).2]⟩

theorem branch (part : Syntax) : Behind (part :: branches) [] := .inl (List.cons_ne_nil _ _)

theorem choiceOrBound (h : Behind branches parts) :
    (branchesOf branches parts).ChoiceOrBound := by
  cases branches with
  | cons first branches => exact .inl ⟨_, rfl⟩
  | nil =>
    obtain hbranches | ⟨part, between, rfl⟩ := h
    · exact absurd rfl hbranches
    · refine .inr ⟨between.reverse ++ [part], ?_⟩
      show Syntax.ofParts (part :: (between ++ [.assertion .startText])).reverse = _
      rw [List.reverse_cons, List.reverse_append]
      cases between.reverse <;> rfl

end Behind

/-- The parts behind the start of the text may be repeated and come to be alternatives. Nothing
takes the start of the text itself away, since there is always a part behind it. -/
theorem readBranches_yields (n : Nat) {branches parts : List Syntax} (h : Behind branches parts) :
    Read.Yields Syntax.ChoiceOrBound (readBranches n branches parts) := by
  induction n generalizing branches parts with
  | zero => exact .throw _
  | succ n ih =>
    refine .bind_any fun _ => .bind_any fun next => ?_
    split
    · exact .pure h.choiceOrBound
    · exact .pure h.choiceOrBound
    · exact .bind_any fun _ => ih (.branch _)
    · refine .bind_any fun s => .bind_any fun opening => ?_
      cases opening with
      | flags changes => exact .bind_any fun _ => ih (h.push _)
      | capture =>
        exact .bind_any fun inner => .bind_any fun part => .bind_any fun atEnd =>
          .ite (.throw _) (.bind_any fun _ => .bind_any fun _ => ih (h.push part))
      | group changes =>
        exact .bind_any fun _ => .bind_any fun inner => .bind_any fun part => .bind_any fun atEnd =>
          .ite (.throw _) (.bind_any fun _ => .bind_any fun _ => ih (h.push part))
    · exact .bind_any fun part => ih (h.push _)
    · refine .bind (popRepeated_yields parts) fun popped hpopped => .bind_any fun part => ?_
      rw [hpopped] at h
      exact ih (h.replace part)
    · exact .bind_any fun part => ih (h.push _)
    · refine .ite ?_ (.bind_any fun _ => ih (h.push _))
      refine .bind (popRepeated_yields parts) fun popped hpopped => .bind_any fun _ =>
        .bind_any fun lazy => ?_
      rw [hpopped] at h
      exact ih (h.replace _)

/-- **A text in its parentheses is a row that begins with the start of the text**, unless it
closes the parenthesis itself and has an alternative behind. -/
theorem read_anchor_shape {text : Text} {whole : Syntax}
    (h : Syntax.read (anchor text) = .ok whole) : whole.ChoiceOrBound := by
  obtain ⟨inner, s, t, -, -, hread, -⟩ := readBranches_of_read_anchor h
  exact readBranches_yields _ (.inr ⟨_, [], rfl⟩) hread

/-- **A text that leaves its parentheses**: it is no pattern by itself, and in parentheses it
becomes alternatives. -/
def LeavesParentheses (text : Text) : Prop :=
  (∀ syn, Syntax.read text ≠ .ok syn)
    ∧ ∃ branches, Syntax.read (anchor text) = .ok (.alternation branches)

/-- A text that stays in its parentheses is matched from the start of the text on. -/
theorem compileAnchored_anchored {pattern : String} {program : Program}
    (h : compileAnchored pattern = .ok program) (hstays : ¬ LeavesParentheses pattern.toList) :
    program.anchored = true := by
  obtain ⟨whole, hwhole, -⟩ := except_bind_eq_ok_iff.mp h
  by_cases hpattern : ∃ syn, Syntax.read pattern.toList = .ok syn
  · obtain ⟨syn, hsyn⟩ := hpattern
    rw [read_anchor hsyn hwhole] at hwhole
    exact compile_anchored hwhole h
  · obtain ⟨branches, rfl⟩ | ⟨rest, rfl⟩ := read_anchor_shape hwhole
    · exact absurd ⟨not_exists.mp hpattern, branches, hwhole⟩ hstays
    · exact compile_anchored hwhole h

end Regex

namespace Parser

variable {env env' : Env} {n stop budget : Nat} {a : String} {k k' : Knots} {log : List Event}

/-- **A pattern matches where it is asked for.** Whatever a pattern that stays in its parentheses
matches stands right where skipping has ended, and the match ends the token; the environment is
handed on as it was. This holds for every environment, also where skipping runs a recursive
grammar. -/
theorem pattern_anchored {pattern message : String} {p : Parser String}
    (haccepted : patternWith pattern message = .ok p)
    (hstays : ¬ Regex.LeavesParentheses pattern.toList)
    (hdone : p.run env n budget k = .done (.ok env' stop a) log k') :
    env' = env ∧ ∃ start rest, env.skipFrom n budget k = .done start log k'
      ∧ env.from? start = some (a.toList ++ rest) ∧ stop = start + Text.size a.toList := by
  unfold patternWith at haccepted
  split at haccepted
  · next program hprogram =>
    cases haccepted
    obtain ⟨start, rest, m, hskip, hrest, hfound, rfl, rfl, ha⟩ := token_run_eq_ok hdone
    have hanchored := Regex.compileAnchored_anchored hprogram hstays
    have hpassed : m.passed = [] := Regex.Program.passed_find? hanchored hfound
    obtain ⟨left, hleft⟩ := Reader.Sound.find? program hfound
    rw [hpassed, List.nil_append, ← ha] at hleft
    refine ⟨rfl, start, left, hskip, hrest.trans (congrArg some hleft.symm), ?_⟩
    rw [Match.size, hpassed, ha]
    exact congrArg (start + ·) (Nat.zero_add _)
  · cases haccepted

/-- Alternatives behind a blank. -/
theorem pattern_anchored_alternatives :
    let env : Env := ⟨" b".toList, some (token (Reader.run1 (· == ' ')) "No room").scan, none⟩
    ∃ p, patternWith "a|b" "No letter" = .ok p
      ∧ p.run env 0 0 .initial = .done (.ok env 2 "b") [] .initial
      ∧ ∃ start rest, env.skipFrom 0 0 .initial = .done start [] .initial
        ∧ env.from? start = some ("b".toList ++ rest) ∧ 2 = start + Text.size "b".toList := by
  intro env
  obtain ⟨p, haccepted, hdone⟩ : ∃ p, patternWith "a|b" "No letter" = .ok p
      ∧ p.run env 0 0 .initial = .done (.ok env 2 "b") [] .initial := ⟨_, rfl, rfl⟩
  have hstays : ¬ Regex.LeavesParentheses "a|b".toList := fun h => h.1 _ rfl
  exact ⟨p, haccepted, hdone, (pattern_anchored haccepted hstays hdone).2⟩

/-- A pattern that leaves its parentheses: nothing is skipped before the `x`, and yet it is the
`b` behind it that is matched. -/
theorem pattern_matches_further_on :
    let env : Env := Env.new "xb".toList
    ∃ p, patternWith "a)|(?:b" "No letter" = .ok p
      ∧ env.skipFrom 0 0 .initial = .done 0 [] .initial
      ∧ p.run env 0 0 .initial = .done (.ok env 2 "b") [] .initial
      ∧ ∀ rest, env.from? 0 ≠ some ("b".toList ++ rest) := by
  intro env
  refine ⟨_, rfl, rfl, rfl, fun rest h => ?_⟩
  have hsubject : env.from? 0 = some "xb".toList := rfl
  rw [hsubject] at h
  exact absurd (List.cons.inj (Option.some.inj h)).1 (by decide)

end Parser

end Descent
