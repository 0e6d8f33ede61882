import Descent.Proofs.Repetition
import Descent.Proofs.Subjects

/-!
# What a repetition reports

A repetition runs its item and its delimiter many times, and each of them may report
events, also of repetitions of its own. Besides these a repetition reports one event, the
last one, which tells why there is no further round and where the repetition ends; and it
reports none if its first item fails (`Construction.repetition_reports_end`).

**Whose events these are.** A log does not tell who wrote what, so it does not do to count
the events in it that have the form of an end. `Parser.Calls` lists the calls that a
repetition makes after its first item, each where the one before it left off, with the log
of each call by itself, and beside them the event that is the repetition's own. The log of
the repetition is these logs one after the other and that event.

**Adjacent items** have the empty text between them, which is found wherever text can be
read. Items that the library builds end at such places, as skipping does, so a repetition
of adjacent items never ends for want of a delimiter.
-/

namespace Descent

/-- Where a repetition ends that reports the event; `none` for the events of others. -/
def Event.repetitionEnd? : Event → Option Nat
  | noDelimiter start => some start
  | noAdvance start => some start
  | noItem start _ => some start
  | _ => none

namespace Parser

variable {α δ : Type} (item : Parser α) (delimiter : Parser δ) (budget : Nat)

/-- **The calls of a repetition after its first item**, from an environment, a position and
a state on: the rounds that are taken, what each call reports, and the event that is
reported at the end. -/
inductive Calls : Env → Nat → Knots → List (Round δ α) → List (List Event) → Event → Knots →
    Prop where
  | noDelimiter {env : Env} {start : Nat} {k k₁ : Knots} {message : String}
      {about : Option Nat} {log : List Event}
      (failed : delimiter.run env start budget k = .done (.fail message about) log k₁) :
      Calls env start k [] [log] (.noDelimiter start) k₁
  | noItem {env env₁ : Env} {start middle : Nat} {k k₁ k₂ : Knots} {d : δ} {message : String}
      {about : Option Nat} {log₁ log₂ : List Event}
      (delimited : delimiter.run env start budget k = .done (.ok env₁ middle d) log₁ k₁)
      (failed : item.run env₁ middle budget k₁ = .done (.fail message about) log₂ k₂) :
      Calls env start k [] [log₁, log₂] (.noItem start message) k₂
  | noAdvance {env env₁ env₂ : Env} {start middle stop : Nat} {k k₁ k₂ : Knots} {d : δ} {a : α}
      {log₁ log₂ : List Event}
      (delimited : delimiter.run env start budget k = .done (.ok env₁ middle d) log₁ k₁)
      (itemized : item.run env₁ middle budget k₁ = .done (.ok env₂ stop a) log₂ k₂)
      (still : ¬(start < stop ∧ stop ≤ maxPosition)) :
      Calls env start k [] [log₁, log₂] (.noAdvance start) k₂
  | round {env env₁ env₂ : Env} {start middle stop : Nat} {k k₁ k₂ k' : Knots} {d : δ} {a : α}
      {log₁ log₂ : List Event} {chain : List (Round δ α)} {logs : List (List Event)} {e : Event}
      (delimited : delimiter.run env start budget k = .done (.ok env₁ middle d) log₁ k₁)
      (itemized : item.run env₁ middle budget k₁ = .done (.ok env₂ stop a) log₂ k₂)
      (beyond : start < stop) (word : stop ≤ maxPosition)
      (more : Calls env₂ stop k₂ chain logs e k') :
      Calls env start k (⟨env₂, stop, d, a⟩ :: chain) (log₁ :: log₂ :: logs) e k'

variable {item delimiter budget}
variable {env : Env} {start : Nat} {k k' : Knots} {chain : List (Round δ α)} {log : List Event}
variable {logs : List (List Event)} {e : Event}

/-- The calls make a chain, whose log is what they report and the end. -/
theorem Calls.toChain (h : Calls item delimiter budget env start k chain logs e k') :
    Chain item delimiter budget env start k chain (logs.flatten ++ [e]) k' := by
  induction h with
  | noDelimiter failed =>
    rw [List.flatten_singleton]
    exact .stop (.noDelimiter failed)
  | noItem delimited failed =>
    rw [List.flatten_cons, List.flatten_singleton]
    exact .stop (.noItem delimited failed)
  | noAdvance delimited itemized still =>
    rw [List.flatten_cons, List.flatten_singleton]
    exact .stop (.noAdvance delimited itemized still)
  | round delimited itemized beyond word more ih =>
    rw [List.flatten_cons, List.flatten_cons, List.append_assoc, List.append_assoc,
      ← List.append_assoc]
    exact .round (.intro delimited itemized beyond word) ih

/-- **A chain is made by calls**, and its log tells what they report and where it ends. -/
theorem Chain.calls (h : Chain item delimiter budget env start k chain log k') :
    ∃ logs e, Calls item delimiter budget env start k chain logs e k'
      ∧ log = logs.flatten ++ [e] := by
  induction h with
  | stop ends =>
    cases ends with
    | noDelimiter failed => exact ⟨_, _, .noDelimiter failed, by rw [List.flatten_singleton]⟩
    | noItem delimited failed =>
      exact ⟨_, _, .noItem delimited failed, by rw [List.flatten_cons, List.flatten_singleton]⟩
    | noAdvance delimited itemized still =>
      exact ⟨_, _, .noAdvance delimited itemized still,
        by rw [List.flatten_cons, List.flatten_singleton]⟩
  | round first rest ih =>
    obtain ⟨logs, e, hcalls, rfl⟩ := ih
    obtain ⟨delimited, itemized, beyond, word⟩ := first
    refine ⟨_, e, .round delimited itemized beyond word hcalls, ?_⟩
    simp only [List.flatten_cons, List.append_assoc]

/-- **The end is reported where the repetition ends**: at the end of its last round. -/
theorem Calls.reply (h : Calls item delimiter budget env start k chain logs e k') (a : α) :
    ∃ env' stop, Round.reply env start chain a = .ok env' stop a
      ∧ e.repetitionEnd? = some stop := by
  induction h with
  | noDelimiter failed => exact ⟨_, _, rfl, rfl⟩
  | noItem delimited failed => exact ⟨_, _, rfl, rfl⟩
  | noAdvance delimited itemized still => exact ⟨_, _, rfl, rfl⟩
  | round delimited itemized beyond word more ih => exact ih

/-! ## The repetitions -/

variable {p : Parser α} {value : α → List (Round δ α) → α}

/-- **After a first item** a repetition is done exactly when its calls are, and reports
these and its end. -/
theorem Repeats.done_iff (h : Repeats item delimiter value p) {env₁ : Env} {stop : Nat}
    {first : α} {log₁ : List Event} {k₁ : Knots}
    (hfirst : item.run env start budget k = .done (.ok env₁ stop first) log₁ k₁)
    {reply : Reply α} :
    p.run env start budget k = .done reply log k'
      ↔ ∃ chain logs e, Calls item delimiter budget env₁ stop k₁ chain logs e k'
          ∧ reply = Round.reply env₁ stop chain (value first chain)
          ∧ log = log₁ ++ (logs.flatten ++ [e]) := by
  refine (h.eq_done_iff hfirst).trans ⟨?_, ?_⟩
  · rintro ⟨chain, log', hchain, hreply, rfl⟩
    obtain ⟨logs, e, hcalls, rfl⟩ := hchain.calls
    exact ⟨chain, logs, e, hcalls, hreply, rfl⟩
  · rintro ⟨chain, logs, e, hcalls, hreply, hlog⟩
    exact ⟨chain, _, hcalls.toChain, hreply, hlog⟩

/-! ## Adjacent items -/

section Adjacent

variable {swaps : Prop} {others : Set Text} {subject : Text}

/-- **The empty text is found at every position**, after what is skipped. -/
theorem string_empty_ensures (henv : env.Within swaps others {subject})
    (hstart : Text.PositionIn {subject} start) :
    ((string "").run env start).Ensures fun reply => ∃ stop, reply = .ok env stop "" := by
  refine .bind (henv.skipFrom hstart) fun middle ⟨t, ht, hmiddle⟩ => ?_
  have hsubject : env.subject = t := henv.subject.trans ht.symm
  obtain ⟨rest, hrest⟩ := Option.isSome_iff_exists.mp hmiddle
  have hfrom : env.from? middle = some rest := by rw [Env.from?, hsubject, hrest]
  have hread : (env.from? middle).bind (Reader.exact "".toList) = some (.here []) := by
    rw [hfrom]
    rfl
  simp only [hread]
  exact .pure ⟨_, rfl⟩

/-- **Adjacent items do not end for want of a delimiter**, if the item stays in the positions
of the subject. -/
theorem Calls.ne_noDelimiter {chain : List (Round String α)}
    (h : Calls item (string "") budget env start k chain logs e k')
    (hitem : item.StaysIn swaps others {subject}) (henv : env.Within swaps others {subject})
    (hstart : Text.PositionIn {subject} start) (m : Nat) : e ≠ .noDelimiter m := by
  induction h with
  | noDelimiter failed =>
    obtain ⟨stop, hok⟩ := string_empty_ensures henv hstart failed
    exact absurd hok (by simp)
  | noItem delimited failed => simp
  | noAdvance delimited itemized still => simp
  | round delimited itemized beyond word more ih =>
    have hdelimiter : (string "").StaysIn swaps others {subject} := .token (.exact _) _
    obtain ⟨henv₁, hmiddle⟩ := hdelimiter henv hstart delimited
    obtain ⟨henv₂, hstop⟩ := hitem henv₁ hmiddle itemized
    exact ih henv₂ hstop

end Adjacent

end Parser

namespace Construction

open Descent.Parser

/-- **A repetition reports its end once**, after everything that the parsers report which it
runs, and its reply is where it reports that it ends.

If its first item fails, it reports what that has reported and nothing more. After a first
item it is done exactly when the calls are that it makes, each where the one before it left
off; it reports what these report, one after the other, and then the end, which is at the
position of its reply. So it is whatever the item and the delimiter are, in all four
repetitions, and if these return so does the repetition.

A repetition of adjacent items which is built by the library never reports that it found no
delimiter, if it is called at a position of the subject, what is skipped is built as well,
and no function puts another text in the place of the subject. -/
theorem repetition_reports_end :
    (∀ {α δ : Type} (item : Parser α) (delimiter : Parser δ)
        (value : α → List (Round δ α) → α) (p : Parser α), Repeats item delimiter value p →
      ∀ budget env start k,
        (∀ message about log k',
          item.run env start budget k = .done (.fail message about) log k' →
          ∃ reply, p.run env start budget k = .done reply log k')
        ∧ ∀ env₁ stop first log₁ k₁,
          item.run env start budget k = .done (.ok env₁ stop first) log₁ k₁ →
          (∀ reply log k', p.run env start budget k = .done reply log k'
            ↔ ∃ chain logs e, Calls item delimiter budget env₁ stop k₁ chain logs e k'
                ∧ reply = Round.reply env₁ stop chain (value first chain)
                ∧ log = log₁ ++ (logs.flatten ++ [e]))
          ∧ (∀ chain logs e k', Calls item delimiter budget env₁ stop k₁ chain logs e k' →
            ∃ env' stop', Round.reply env₁ stop chain (value first chain)
                = .ok env' stop' (value first chain) ∧ e.repetitionEnd? = some stop')
          ∧ (item.Total budget → delimiter.Total budget →
            ∃ reply log k', p.run env start budget k = .done reply log k'))
    ∧ ∀ (swaps : Prop) {α : Type} (c : Closed α), c.Obeys (.putsIn swaps ∅) →
      ∀ env : Env, (∀ scan, env.Offers swaps scan →
          ∃ (β : Type) (b : Closed β), b.Obeys (.putsIn swaps ∅) ∧ scan = b.toParser.scan) →
      ∀ start, Text.IsBoundary start env.subject → ∀ budget k env₁ stop first log₁ k₁,
        c.toParser.run env start budget k = .done (.ok env₁ stop first) log₁ k₁ →
      ∀ chain logs e k', Calls c.toParser (string "") budget env₁ stop k₁ chain logs e k' →
        ∀ m, e ≠ .noDelimiter m := by
  constructor
  · intro α δ item delimiter value p hp budget env start k
    refine ⟨fun message about log k' hfail => hp.done_of_fail hfail,
      fun env₁ stop first log₁ k₁ hfirst => ⟨fun reply log k' => hp.done_iff hfirst,
        fun chain logs e k' hcalls => hcalls.reply _, fun hitem hdelimiter => ?_⟩⟩
    obtain ⟨chain, log, k', hchain⟩ := exists_chain hitem hdelimiter env₁ stop k₁
    obtain ⟨logs, e, hcalls, -⟩ := hchain.calls
    exact ⟨_, _, k', (hp.done_iff hfirst).mpr ⟨chain, logs, e, hcalls, rfl, rfl⟩⟩
  · intro swaps α c hc env hskip start hstart budget k env₁ stop first log₁ k₁ hfirst chain logs e
      k' hcalls
    have hitem : c.toParser.StaysIn swaps ∅ {env.subject} := c.staysIn hc (fun v => v.elim) _
    have hwithin : env.Within swaps ∅ {env.subject} := by
      refine ⟨Set.empty_subset _, rfl, fun scan hscan S' hS' => ?_⟩
      obtain ⟨β, b, hb, rfl⟩ := hskip scan hscan
      exact b.scan_staysIn hb hS'
    obtain ⟨henv₁, hstop⟩ := hitem hwithin ⟨_, rfl, hstart⟩ hfirst
    exact hcalls.ne_noDelimiter hitem henv₁ hstop

/-- A repetition of runs of a letter: the first run reports its end, at the same position
and for the same reason as the outer repetition does after it. -/
theorem repetition_reports_end_nested :
    let message := "Does not match a"
    let item : Closed String := .foldMany1 (.primitive (.string "a" message)) fun a b => a ++ b
    let env := Env.new ['a', 'a']
    let p := item.toParser.foldMany (fun a b => a ++ b) ""
    p.run env 0 0 .initial
        = .done (.ok env 2 "aa") [.noItem 2 message, .noItem 2 message] .initial
    ∧ (∃ reply, p.run env 2 0 .initial = .done reply [] .initial)
    ∧ ∀ m, Event.noItem 2 message ≠ .noDelimiter m := by
  intro message item env p
  obtain ⟨hends, hadjacent⟩ := repetition_reports_end
  have hempty : ∀ n ∈ [1, 2],
      (string "").run env n 0 .initial = .done (.ok env n "") [] .initial := by
    intro n hn
    obtain rfl | rfl := by simpa using hn
    · rfl
    · rfl
  -- the first run is two letters, and there is no other
  have hletter : (string "a").run env 0 0 .initial = .done (.ok env 1 "a") [] .initial := rfl
  have hletter₁ : (string "a").run env 1 0 .initial = .done (.ok env 2 "a") [] .initial := rfl
  have hletter₂ : (string "a").run env 2 0 .initial
      = .done (.fail message (some 2)) [] .initial := rfl
  have hinner : Repeats (string "a") _ _ item.toParser := .foldMany1 fun a b => a ++ b
  have hfirst : item.toParser.run env 0 0 .initial
      = .done (.ok env 2 "aa") [.noItem 2 message] .initial :=
    (((hends _ _ _ _ hinner 0 env 0 .initial).2 _ _ _ _ _ hletter).1 _ _ _).mpr ⟨_, _, _,
      .round (hempty 1 (by simp)) hletter₁ (by decide) (by decide)
        (.noItem (hempty 2 (by simp)) hletter₂), rfl, rfl⟩
  have hnone : item.toParser.run env 2 0 .initial
      = .done (.fail message (some 2)) [] .initial := rfl
  have hcalls := Calls.noItem (hempty 2 (by simp)) hnone
  have houter : Repeats item.toParser _ _ p := .foldMany (fun a b => a ++ b) ""
  have hmany := hends _ _ _ _ houter 0 env
  refine ⟨?_, (hmany 2 .initial).1 _ _ _ _ hnone, ?_⟩
  · exact (((hmany 0 .initial).2 _ _ _ _ _ hfirst).1 _ _ _).mpr ⟨_, _, _, hcalls, rfl, rfl⟩
  · refine hadjacent False item trivial env ?_ 0 (.of_from? (Text.from?_zero env.subject)) _ _ _ _ _
      _ _ hfirst _ _ _ _ hcalls
    rintro scan (hscan | ⟨h, -⟩)
    · exact absurd hscan (Option.some_ne_none scan).symm
    · exact h.elim

end Construction

end Descent
