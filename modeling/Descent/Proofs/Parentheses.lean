import Descent.Parser.Choice
import Descent.Parser.Token
import Descent.Proofs.Boundary
import Descent.Proofs.Reading
import Descent.Proofs.Tokens
import Descent.Proofs.Tying

/-!
# Nested parentheses

The smallest grammar that has to be recursive: an opening parenthesis, the grammar
itself or nothing, and a closing parenthesis, with a message of its own. It recognises
`n` opening parentheses that `n` closing ones follow directly, for every `n ≥ 1`, and
nothing else (`Parser.parens_nested`).

**How deep a text nests.** A text begins with at most one such nesting, since the
character behind the opening parentheses is the first closing one. `Text.nesting` tells
how deep it is, by the recursion of the grammar: behind an opening parenthesis stands a
nesting, or none, and what counts is whether a closing parenthesis follows it.

**Going back at every level.** The grammar is called behind every opening parenthesis
and fails behind the last one. There nothing is taken instead; and wherever else it
fails nothing is taken instead too, but then another opening parenthesis stands where a
closing one has to. So "nesting or nothing" always succeeds, and takes a nesting of the
depth that the text has, which may be none: one rule serves both, and the induction is
on the text alone.
-/

namespace Descent

namespace Text

/-! ## Nestings -/

/-- So many opening parentheses and as many closing ones. -/
def nest (n : Nat) : Text := List.replicate n '(' ++ List.replicate n ')'

/-- **How deep the parentheses nest** that the text begins with. -/
def nesting : Text → Nat
  | [] => 0
  | c :: rest =>
    if c = '(' ∧ [')'] <+: rest.drop (2 * nesting rest) then nesting rest + 1 else 0

variable {n : Nat} {rest : Text}

@[simp] theorem length_nest (n : Nat) : (nest n).length = 2 * n := by
  rw [nest, List.length_append, List.length_replicate, List.length_replicate]
  omega

@[simp] theorem size_nest (n : Nat) : size (nest n) = 2 * n := by
  have hreplicate : ∀ (n : Nat) (c : Char), c.utf8Size = 1 → size (List.replicate n c) = n := by
    intro n c hc
    induction n with
    | zero => rfl
    | succ n ih => rw [List.replicate_succ, size_cons, ih, hc, Nat.add_comm]
  rw [nest, size_append, hreplicate n '(' rfl, hreplicate n ')' rfl]
  omega

/-- A nesting stands between the parentheses of a deeper one. -/
theorem nest_succ (n : Nat) : nest (n + 1) = '(' :: (nest n ++ [')']) := by
  rw [nest, nest, List.replicate_succ, List.replicate_succ' (a := ')'), List.append_assoc,
    List.cons_append]

/-- **A deeper nesting** is found where an opening parenthesis stands, a nesting behind
it, and a closing parenthesis behind that. -/
theorem nest_succ_isPrefix_cons {c : Char} :
    nest (n + 1) <+: c :: rest ↔ c = '(' ∧ nest n ++ [')'] <+: rest := by
  rw [nest_succ, List.cons_prefix_cons, eq_comm]

/-- What stands behind an initial segment. -/
theorem append_isPrefix_iff {u v : Text} :
    u ++ v <+: rest ↔ u <+: rest ∧ v <+: rest.drop u.length := by
  constructor
  · rintro ⟨left, rfl⟩
    refine ⟨⟨v ++ left, (List.append_assoc _ _ _).symm⟩, left, ?_⟩
    rw [List.append_assoc, List.drop_left]
  · rintro ⟨⟨left, rfl⟩, hv⟩
    rw [List.drop_left] at hv
    exact (List.prefix_append_right_inj u).mpr hv

/-- A text begins with the nesting that it is said to begin with. -/
theorem nest_nesting_isPrefix (rest : Text) : nest (nesting rest) <+: rest := by
  induction rest with
  | nil => exact List.nil_prefix
  | cons c rest ih =>
    rw [nesting]
    split
    · next h =>
      refine nest_succ_isPrefix_cons.mpr ⟨h.1, append_isPrefix_iff.mpr ⟨ih, ?_⟩⟩
      rw [length_nest]
      exact h.2
    · exact List.nil_prefix

/-- **There is no other nesting** that the text begins with. -/
theorem nesting_eq (hn : 1 ≤ n) (h : nest n <+: rest) : nesting rest = n := by
  induction rest generalizing n with
  | nil =>
    have hnil : nest n = [] := List.prefix_nil.mp h
    have hlength := congrArg List.length hnil
    rw [length_nest, List.length_nil] at hlength
    omega
  | cons c rest ih =>
    obtain ⟨m, rfl⟩ : ∃ m, n = m + 1 := ⟨n - 1, by omega⟩
    obtain ⟨rfl, hinner⟩ := nest_succ_isPrefix_cons.mp h
    obtain ⟨hm, hclose⟩ := append_isPrefix_iff.mp hinner
    rw [length_nest] at hclose
    have hdepth : nesting rest = m := by
      cases m with
      | succ m => exact ih (by omega) hm
      | zero =>
        -- no nesting begins with a closing parenthesis
        obtain ⟨left, rfl⟩ : [')'] <+: rest := by simpa using hclose
        rw [List.singleton_append, nesting, if_neg (by simp)]
    rw [nesting, hdepth, if_pos ⟨rfl, hclose⟩]

/-- A text begins with a nesting exactly if it nests at all. -/
theorem exists_nest_isPrefix_iff : (∃ n, 1 ≤ n ∧ nest n <+: rest) ↔ 1 ≤ nesting rest := by
  constructor
  · rintro ⟨n, hn, h⟩
    rw [nesting_eq hn h]
    exact hn
  · exact fun h => ⟨_, h, nest_nesting_isPrefix rest⟩

end Text

namespace Parser

open Text (nest nesting)

/-! ## The grammar -/

/-- What is complained of. -/
def unbalanced : String := "Unbalanced parenthesis"

/-- **The rule**: parentheses around what another parser reads, or around nothing. -/
def enclosed (inner : Parser String) : Parser String :=
  (((string "(").bindMap (fun _ => inner.orElse (string "")) fun a b => a ++ b).bindMap
    (fun _ => string ")") fun ab c => ab ++ c).mapMessage fun _ => unbalanced

/-- The grammar of nested parentheses. -/
def parensKnot (name : KnotName) : Knot fun _ : Unit => String :=
  knot1 name fun inner => .ok (enclosed inner)

/-- **Nested parentheses.** -/
def parens (name : KnotName) : Parser String := letrec1 name fun inner => .ok (enclosed inner)

variable {e : Env} {n : Nat} {rest : Text} {scope : Nat}

/-! ## Texts where nothing is skipped -/

/-- A text is read where it stands. -/
theorem reads_exact (hskip : e.skip = none) {t : String} {u : Text} (ht : t.toList = u)
    (v : Text) : Reads scope e (string t) u t v := by
  subst ht
  intro n hn
  have hskipFrom : e.skipFrom n = pure n := by rw [Env.skipFrom, hskip]
  have hread : Reader.exact t.toList (t.toList ++ v) = some (Match.here t.toList) := by
    rw [Reader.exact, Text.dropExact?_eq_some_iff.mpr rfl, Option.map_some]
  rw [string, stringWith, token_run_of_skipFrom hskipFrom hn, hread]
  refine .pure ?_
  simp only [Match.size_here, Match.text_here, String.ofList_toList]

/-- A text is not read where it does not stand. -/
theorem rejects_exact (hskip : e.skip = none) {t : String} {u : Text} (ht : t.toList = u)
    (h : ¬u <+: rest) : Rejects scope e (string t) rest := by
  subst ht
  intro n hn
  have hskipFrom : e.skipFrom n = pure n := by rw [Env.skipFrom, hskip]
  have hread : Reader.exact t.toList rest = none := by
    rw [Reader.exact, Option.map_eq_none_iff, Option.eq_none_iff_forall_ne_some]
    exact fun left hleft => h (Text.isPrefix_of_dropExact? hleft)
  rw [string, stringWith, token_run_of_skipFrom hskipFrom hn, hread]
  exact .pure ⟨_, _, rfl⟩

/-! ## What is recognised -/

/-- **What comes of the grammar** at a text: its nesting is read, or there is none and
the message says so. -/
def Nests (e : Env) (n : Nat) (rest : Text) (r : Reply String) : Prop :=
  1 ≤ nesting rest ∧ r = .ok e (n + 2 * nesting rest) (String.ofList (nest (nesting rest)))
    ∨ nesting rest = 0 ∧ ∃ about, r = .fail unbalanced about

/-- A nesting, or nothing: one of the two is always read. -/
theorem Nests.orElse (hskip : e.skip = none) {inner : Parser String}
    (hinner : ∀ n, e.from? n = some rest → (inner.run e n).Yields scope (Nests e n rest))
    (hn : e.from? n = some rest) :
    ((inner.orElse (string "")).run e n).Yields scope fun r =>
      r = .ok e (n + 2 * nesting rest) (String.ofList (nest (nesting rest))) := by
  refine .bind (hinner n hn) fun r hr => ?_
  obtain ⟨-, rfl⟩ | ⟨hzero, about, rfl⟩ := hr
  · exact .pure rfl
  · rw [hzero]
    exact .bind (.emit _) fun _ _ => reads_exact hskip rfl rest n hn

/-- What comes second after a success. -/
theorem yields_bindMap {α β γ : Type} {p : Parser α} {k : α → Parser β} {f : α → β → γ}
    {stop : Nat} {a : α} {Q : Reply β → Prop} {Q' : Reply γ → Prop}
    (hp : (p.run e n).Yields scope fun r => r = .ok e stop a)
    (hk : ((k a).run e stop).Yields scope Q) (h : ∀ r, Q r → Q' (r.map (f a))) :
    ((p.bindMap k f).run e n).Yields scope Q' := by
  refine .bind hp fun r hr => ?_
  rw [hr]
  exact .bind hk fun r hr => .pure (h r hr)

/-- What comes second is not asked after a failure. -/
theorem Rejects.bindMap {α β γ : Type} {p : Parser α} (hp : Rejects scope e p rest)
    (k : α → Parser β) (f : α → β → γ) : Rejects scope e (p.bindMap k f) rest := by
  intro n hn
  refine .bind (hp n hn) fun r hr => ?_
  obtain ⟨message, about, rfl⟩ := hr
  exact .pure ⟨_, _, rfl⟩

/-- Every failure of the rule has its message. -/
theorem yields_unbalanced {p : Parser String} {Q : Reply String → Prop}
    (hp : (p.run e n).Yields scope fun r => r.isOk = true ∧ Q r
      ∨ r.isOk = false ∧ ∀ about, Q (.fail unbalanced about)) :
    ((p.mapMessage fun _ => unbalanced).run e n).Yields scope Q := by
  refine .bind hp fun r hr => ?_
  cases r with
  | ok env stop a => exact .pure (by simpa [Reply.isOk] using hr)
  | fail message about =>
    have hfails : ∀ about, Q (.fail unbalanced about) := by simpa [Reply.isOk] using hr
    have hmessage : unbalanced.isEmpty = false := by decide
    simp only [hmessage]
    exact .pure (hfails about)

/-- **The rule recognises one level more** than the parser inside of it, which is only
asked behind an opening parenthesis. -/
theorem enclosed_nests (hskip : e.skip = none) {inner : Parser String}
    (hinner : ∀ left n, rest = '(' :: left → e.from? n = some left →
      (inner.run e n).Yields scope (Nests e n left)) (hn : e.from? n = some rest) :
    ((enclosed inner).run e n).Yields scope (Nests e n rest) := by
  have hfails (h : nesting rest = 0) (about : Option Nat) :
      Nests e n rest (.fail unbalanced about) := .inr ⟨h, about, rfl⟩
  refine yields_unbalanced ?_
  by_cases hopen : ['('] <+: rest
  · obtain ⟨left, rfl⟩ := hopen
    rw [List.singleton_append] at hn hinner hfails ⊢
    have hleft : e.from? (n + 1) = some left := Env.from?_add (u := ['(']) hn
    have hinside := Nests.orElse hskip (fun n => hinner left n rfl) hleft
    have hfront : (((string "(").bindMap (fun _ => inner.orElse (string "")) fun a b => a ++ b).run
        e n).Yields scope fun r => r = .ok e (n + 1 + 2 * nesting left)
          ("(" ++ String.ofList (nest (nesting left))) :=
      yields_bindMap (reads_exact hskip rfl left n hn) hinside fun r hr => by rw [hr, Reply.map]
    -- a closing parenthesis has to stand behind the nesting
    obtain ⟨behind, hbehind⟩ : ∃ behind, left = nest (nesting left) ++ behind := by
      obtain ⟨behind, h⟩ := Text.nest_nesting_isPrefix left
      exact ⟨behind, h.symm⟩
    have hdrop : left.drop (2 * nesting left) = behind := by
      exact (congrArg (List.drop (2 * nesting left)) hbehind).trans
        (List.drop_left' (Text.length_nest _))
    have hstop : e.from? (n + 1 + 2 * nesting left) = some behind := by
      rw [← Text.size_nest]
      exact Env.from?_add (hleft.trans (congrArg some hbehind))
    by_cases hclose : [')'] <+: behind
    · have hdepth : nesting ('(' :: left) = nesting left + 1 := by
        rw [nesting, hdrop, if_pos ⟨rfl, hclose⟩]
      obtain ⟨more, rfl⟩ := hclose
      refine yields_bindMap hfront (reads_exact hskip rfl more _ hstop) fun r hr => .inl ?_
      rw [hr, Reply.map]
      refine ⟨rfl, .inl ⟨by omega, ?_⟩⟩
      have htext : "(" ++ String.ofList (nest (nesting left)) ++ ")"
          = String.ofList (nest (nesting left + 1)) := by
        rw [Text.nest_succ]
        apply String.toList_injective
        simp
      rw [hdepth, htext]
      congr 1
      show n + 1 + 2 * nesting left + 1 = _
      omega
    · have hdepth : nesting ('(' :: left) = 0 := by
        rw [nesting, hdrop, if_neg fun h => hclose h.2]
      refine .bind hfront fun r hr => ?_
      rw [hr]
      refine .bind (rejects_exact hskip (t := ")") rfl hclose _ hstop) fun r hr => ?_
      obtain ⟨message, about, rfl⟩ := hr
      exact .pure (.inr ⟨rfl, hfails hdepth⟩)
  · have hzero : nesting rest = 0 := by
      cases rest with
      | nil => rfl
      | cons c rest =>
        rw [nesting, if_neg]
        rintro ⟨rfl, -⟩
        exact hopen (List.prefix_append ['('] rest)
    have hrejects : Rejects scope e (string "(") rest := rejects_exact hskip rfl hopen
    refine ((hrejects.bindMap _ _).bindMap _ _ n hn).mono fun r hr => ?_
    obtain ⟨message, about, rfl⟩ := hr
    exact .inr ⟨rfl, hfails hzero⟩

/-! ## The recursion -/

/-- The opening parentheses that a text begins with. -/
def openings (rest : Text) : Nat := (rest.takeWhile (· = '(')).length

/-- **A call recognises nested parentheses**, if there is one to spend on every opening
parenthesis that the text begins with, and one more. The induction is on the text: the
rule calls itself behind an opening parenthesis. -/
theorem call_nests (hskip : e.skip = none) (name : KnotName) {b : Nat} (hb : openings rest < b)
    (hn : e.from? n = some rest) :
    ((parensKnot name).call b () e n).Yields name.scope (Nests e n rest) := by
  induction rest generalizing b n with
  | nil =>
    obtain ⟨b, rfl⟩ : ∃ b', b = b' + 1 := ⟨b - 1, by omega⟩
    refine Knot.yields_call (fun _ => ⟨_, rfl⟩) rfl ?_
    exact enclosed_nests hskip (fun left n h => absurd h (by simp)) hn
  | cons c rest ih =>
    obtain ⟨b, rfl⟩ : ∃ b', b = b' + 1 := ⟨b - 1, by omega⟩
    refine Knot.yields_call (fun _ => ⟨_, rfl⟩) rfl (enclosed_nests hskip ?_ hn)
    rintro left n h hleft
    obtain ⟨rfl, rfl⟩ := List.cons.inj h
    rw [openings, List.takeWhile_cons_of_pos (by simp), List.length_cons] at hb
    have hcall : ((parensKnot name).call b () e n).Yields (parensKnot name).name.scope
        (Nests e n rest) := ih (Nat.lt_of_succ_lt_succ hb) hleft
    exact Knot.yields_handle hcall

/-- **Nested parentheses are recognised**, and nothing else is. At the beginning of any
subject, where nothing is skipped, the grammar returns. It succeeds exactly if the subject
begins with `n` opening parentheses that at least `n` closing ones follow directly, for
some `n ≥ 1`; then it ends behind `n` of these, with the text up to there as its value. And
if it fails, it is with its own message. -/
theorem parens_nested (name : KnotName) (hskip : e.skip = none) {b : Nat}
    (hb : openings e.subject < b) {k : Knots} (hk : name.scope ∈ k.live) :
    ∃ reply log k', (parens name).run e 0 b k = .done reply log k'
      ∧ (reply.isOk = true ↔ ∃ n, 1 ≤ n
          ∧ List.replicate n '(' ++ List.replicate n ')' <+: e.subject)
      ∧ (∀ e' stop a, reply = .ok e' stop a → e' = e ∧ ∃ n, 1 ≤ n ∧ stop = 2 * n
          ∧ List.replicate n '(' ++ List.replicate n ')' <+: e.subject
          ∧ a = String.ofList (List.replicate n '(' ++ List.replicate n ')'))
      ∧ ∀ message about, reply = .fail message about → message = "Unbalanced parenthesis" := by
  have hstart : e.from? 0 = some e.subject := Text.from?_zero e.subject
  obtain ⟨reply, log, k', hdone, hreply, -⟩ := call_nests hskip name hb hstart b k hk
  refine ⟨reply, log, k', (Knot.entry_run_apply () e 0 b k).trans hdone, ?_⟩
  rw [show (∃ n, 1 ≤ n ∧ List.replicate n '(' ++ List.replicate n ')' <+: e.subject)
    ↔ 1 ≤ nesting e.subject from Text.exists_nest_isPrefix_iff]
  obtain ⟨hdepth, rfl⟩ | ⟨hdepth, about, rfl⟩ := hreply
  · refine ⟨iff_of_true rfl hdepth, ?_, fun _ _ h => absurd h (by simp)⟩
    rintro e' stop a h
    obtain ⟨rfl, rfl, rfl⟩ := Reply.ok.inj h
    exact ⟨rfl, _, hdepth, Nat.zero_add _, Text.nest_nesting_isPrefix _, rfl⟩
  · refine ⟨iff_of_false Bool.false_ne_true (by omega), fun _ _ _ h => absurd h (by simp), ?_⟩
    rintro message about h
    exact (Reply.fail.inj h).1.symm

/-- The fourth closing parenthesis is left, and so is the text behind it. -/
theorem parens_nested_surplus :
    let e : Env := Env.new "((()))) ".toList
    e.skip = none ∧ openings e.subject < 4 ∧ 0 ∈ Knots.initial.live
    ∧ ∃ e' log k', (parens ⟨0, []⟩).run e 0 4 .initial = .done (.ok e' 6 "((()))") log k' := by
  intro e
  have hb : openings e.subject < 4 := by decide
  have hlive : 0 ∈ Knots.initial.live := by decide
  obtain ⟨reply, log, k', hdone, hiff, hok, -⟩ := parens_nested ⟨0, []⟩ (e := e) rfl hb hlive
  have hnests : nest 3 <+: e.subject := by decide
  cases reply with
  | fail message about => exact absurd (hiff.mpr ⟨3, by decide, hnests⟩) Bool.false_ne_true
  | ok e' stop a =>
    obtain ⟨-, n, hn, rfl, hprefix, rfl⟩ := hok e' stop a rfl
    obtain rfl : n = 3 := (Text.nesting_eq hn hprefix).symm.trans
      (Text.nesting_eq (by decide) hnests)
    exact ⟨rfl, hb, hlive, e', log, k', hdone⟩

end Parser

end Descent
