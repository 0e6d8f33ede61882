import Descent.Proofs.Laws
import Descent.Proofs.Repetition

/-!
# Repetition always ends

Recursion is the only way in which a parser can go on forever. Without it every parser
comes to an end, whatever it repeats (`Construction.repetition_ends`): items that match
nothing, delimiters that consume only what is skipped, parts that go back to where the
repetition began, and repetitions of all of these.

**Ending is a law.** Every construct of `Eval` but a call ends if its parts do, so the
law has nothing to show for a parser that is made of others. For a repetition this is
so because rounds are counted down from the largest position; that the count is never
what ends the loop is said by `Parser.Chain`, which has no count in it.

**The number of rounds.** Each round of a chain ends strictly beyond the position where
it began. If the rounds end within some size, there are no more of them than positions
between the end of the first item and that size (`Parser.Chain.length_le`). Nothing is
asked of what happens inside of a round, nor of what the delimiters match.
-/

namespace Descent

/-- **The end of an evaluation that ends**: with a value as described, or stopped by a
fault that is allowed for. -/
def Outcome.Ended {α : Type} (stops : Fault → Prop) (P : α → Prop) : Outcome α → Prop
  | .done a _ _ => P a
  | .fault cause _ _ => stops cause
  | .exhausted => False

namespace Outcome.Ended

variable {α : Type} {stops : Fault → Prop} {P : α → Prop} {o : Outcome α}

theorem after (h : o.Ended stops P) (log : List Event) : (o.after log).Ended stops P := by
  cases o with
  | done a log' k => exact h
  | fault cause log' k => exact h
  | exhausted => exact h.elim

/-- What has ended is done, or was stopped. -/
theorem done_or_fault (h : o.Ended stops P) :
    (∃ a log k, o = .done a log k ∧ P a) ∨ ∃ cause log k, o = .fault cause log k ∧ stops cause := by
  cases o with
  | done a log k => exact .inl ⟨a, log, k, rfl, h⟩
  | fault cause log k => exact .inr ⟨cause, log, k, rfl, h⟩
  | exhausted => exact h.elim

end Outcome.Ended

/-- Both parts of a sequence end. -/
theorem Eval.bind_ended {α β : Type} {stops : Fault → Prop} {P : α → Prop} {Q : β → Prop}
    {x : Eval α} {f : α → Eval β} (hx : ∀ n k, (x n k).Ended stops P)
    (hf : ∀ a, P a → ∀ n k, (f a n k).Ended stops Q) (n : Nat) (k : Knots) :
    ((x >>= f) n k).Ended stops Q := by
  have hend := hx n k
  rw [bind_apply]
  cases hdone : x n k with
  | done a log k₁ =>
    rw [hdone] at hend
    exact (hf a hend n k₁).after log
  | fault cause log k₁ => rw [hdone] at hend; exact hend
  | exhausted => rw [hdone] at hend; exact hend

/-- **Every evaluation ends**, at any budget and from any state, or is stopped by a fault
that is allowed for. No recursive grammar is known to this law. -/
def Law.ends (stops : Fault → Prop) : Law where
  holds alive x P := ∀ n k, (x n k).Ended stops (P alive)
  stops := stops
  knows _ _ := False
  pure h _ _ := h _ (List.Subset.refl _)
  bind hx hf := Eval.bind_ended hx fun a ha => hf _ (List.Subset.refl _) a ha
  emit _ _ _ := trivial
  stop h _ _ := h
  budget _ _ := trivial
  inScope h := Eval.bind_ended (P := fun _ => True) (fun _ _ => trivial) fun scope _ =>
    Eval.bind_ended (h scope) fun _ ha => Eval.bind_ended (P := fun _ => True)
      (fun _ _ => trivial) fun _ _ _ _ => ha
  giveUp h := h.elim
  ensureLive h := h.elim
  call h := h.elim

namespace Parser

variable {α δ : Type} {item : Parser α} {delimiter : Parser δ} {budget : Nat}

/-- **Every round takes a position.** The induction is on the chain: a round that ends
within the limit leaves less room to those after it. -/
theorem Chain.length_le {limit : Nat} {env : Env} {start : Nat} {k k' : Knots}
    {chain : List (Round δ α)} {log : List Event}
    (h : Chain item delimiter budget env start k chain log k')
    (hlimit : ∀ r ∈ chain, r.stop ≤ limit) : chain.length ≤ limit - start := by
  induction h with
  | stop ends => exact Nat.zero_le _
  | @round env start k k₁ k' r chain log log' first rest ih =>
    have hrest : chain.length ≤ limit - r.stop :=
      ih fun r' hr' => hlimit r' (List.mem_cons_of_mem r hr')
    have hr : r.stop ≤ limit := hlimit r List.mem_cons_self
    have hbeyond : start < r.stop := by cases first with | intro _ _ beyond _ => exact beyond
    rw [List.length_cons]
    omega

end Parser

namespace Construction

/-- **No part of the construction is recursive**, and only some faults stop it: parts
that cannot be built and failures without a message are among them or do not occur. What
is written by hand ends by itself. -/
def LetrecFree (stops : Fault → Prop) {V : Type} {Γ : V → Type} {α : Type}
    (c : Construction Γ α) : Prop :=
  c.Lawful (.ends stops) []

end Construction

/-- Neither is what is skipped, nor what may follow a keyword. -/
def Env.LetrecFree (stops : Fault → Prop) (env : Env) : Prop :=
  env.BuiltLawfully (.ends stops) []

namespace Construction

/-- **Repetition always ends.** A grammar without recursion returns, in an environment
without recursion and from every position, unless it is stopped by one of the faults
that were allowed for; whatever it repeats may match nothing, consume only what is
skipped or go back. And a repetition of any item and delimiter, with whatever value it
makes of the items, is done with a maximal chain of rounds after its first item, and so
is each of the four repetitions there are; if the rounds end within the subject, they are
no more than its size minus the end of the first item. -/
theorem repetition_ends {α : Type} {stops : Fault → Prop} (c : Closed α)
    (hc : c.LetrecFree stops) {env : Env} (henv : env.LetrecFree stops) (start budget : Nat)
    (k : Knots) :
    ((∃ reply log k', c.toParser.run env start budget k = .done reply log k')
      ∨ ∃ cause log k', c.toParser.run env start budget k = .fault cause log k' ∧ stops cause)
    ∧ ∀ {β δ : Type} (item : Parser β) (delimiter : Parser δ)
        (value : β → List (Round δ β) → β) (p : Parser β),
      Parser.Repeats item delimiter value p ∨ p = Parser.repetition item delimiter value →
      ∀ (env : Env) start budget k env₁ stop first log₁ k₁,
      item.run env start budget k = .done (.ok env₁ stop first) log₁ k₁ →
      ∀ reply log k', p.run env start budget k = .done reply log k' →
        ∃ chain log₂, Parser.Chain item delimiter budget env₁ stop k₁ chain log₂ k'
          ∧ reply = Round.reply env₁ stop chain (value first chain) ∧ log = log₁ ++ log₂
          ∧ ((∀ r ∈ chain, r.stop ≤ Text.size env.subject) →
              chain.length ≤ Text.size env.subject - stop) := by
  constructor
  · have hlawful : c.toParser.Lawful (.ends stops) [] := c.lawful hc fun v => v.elim
    have hend := hlawful (List.Subset.refl []) henv.lawful start budget k
    obtain ⟨reply, log, k', hdone, -⟩ | hfault := hend.done_or_fault
    · exact .inl ⟨reply, log, k', hdone⟩
    · exact .inr hfault
  · intro β δ item delimiter value p hp env start budget k env₁ stop first log₁ k₁ hfirst reply
      log k' hdone
    have hchain : ∃ chain log₂, Parser.Chain item delimiter budget env₁ stop k₁ chain log₂ k'
        ∧ reply = Round.reply env₁ stop chain (value first chain) ∧ log = log₁ ++ log₂ := by
      obtain hrepeats | rfl := hp
      · exact (hrepeats.eq_done_iff hfirst).mp hdone
      · exact (Parser.repetition_eq_done_iff value hfirst).mp hdone
    obtain ⟨chain, log₂, hchain, hreply, hlog⟩ := hchain
    exact ⟨chain, log₂, hchain, hreply, hlog, hchain.length_le⟩

/-- Letters that may be missing, each two separated by a jump back to the beginning,
and all that any number of times, where dashes are skipped. -/
def rewindingLetters : Closed String :=
  .inEnv (.foldMany (.foldSep (.withDefault (.primitive (.string "a" "no letter")) "")
      (.primitive (.moveTo 0)) fun a _ b => a ++ b) (· ++ ·) "")
    (fun _ : Unit => .foldMany (.primitive (.string "-" "no dash")) (· ++ ·) "")
    fun scans env => pure (env.make scans [.adjust (.withSkip (some ()))])

/-- They end in an environment that skips blanks, without a reason to be stopped; and two
letters that follow the first one, with nothing between them, are two rounds at most. -/
theorem repetition_ends_rewinding :
    let blanks : Closed String := .foldMany (.primitive (.string " " "no blank")) (· ++ ·) ""
    let env : Env := ⟨['-', 'a', ' ', 'a'], some blanks.toParser.scan, none⟩
    rewindingLetters.LetrecFree (fun _ => False) ∧ env.LetrecFree (fun _ => False)
    ∧ (∃ reply log k', rewindingLetters.toParser.run env 0 0 .initial = .done reply log k')
    ∧ ∀ reply log k', ((Parser.string "a").foldMany1 (· ++ ·)).run
          (Env.new ['a', 'a', 'a']) 0 0 .initial = .done reply log k' →
        ∃ chain log₂, Parser.Chain (Parser.string "a") (Parser.string "") 0
            (Env.new ['a', 'a', 'a']) 1 .initial chain log₂ k'
          ∧ ((∀ r ∈ chain, r.stop ≤ 3) → chain.length ≤ 2) := by
  intro blanks env
  have hc : rewindingLetters.LetrecFree fun _ => False :=
    ⟨⟨.inl trivial, .inl trivial⟩, fun _ => .inl trivial, lawful_steps (fun _ _ => rfl) []⟩
  have hblanks : blanks.LetrecFree fun _ => False := .inl trivial
  have henv : env.LetrecFree fun _ => False := by
    rintro s (h | h)
    · exact ⟨String, blanks, hblanks, (Option.some.inj h).symm⟩
    · exact absurd h (by simp [env])
  obtain ⟨hends, hrounds⟩ := rewindingLetters.repetition_ends hc henv 0 0 .initial
  refine ⟨hc, henv, hends.resolve_right fun ⟨_, _, _, _, h⟩ => h, fun reply log k' hdone => ?_⟩
  obtain ⟨chain, log₂, hchain, -, -, hlength⟩ :=
    hrounds _ _ _ _ (.inl (.foldMany1 (· ++ ·))) _ 0 0 .initial _ 1 "a" [] .initial rfl reply
      log k' hdone
  exact ⟨chain, log₂, hchain, hlength⟩

end Construction

end Descent
