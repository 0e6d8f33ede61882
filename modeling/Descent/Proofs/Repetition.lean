import Descent.Proofs.Evaluation
import Descent.Proofs.Rounds

/-!
# What a repetition means

A repetition runs a first item and then rounds, each a delimiter and an item,
as long as they advance. `Parser.Chain` says so without the loop: a chain is a
list of rounds, each in the environment and at the position that the one before
it left, and it ends where a further round fails or does not advance. Nothing
in it bounds the number of rounds, and nothing in it folds.

The two loops, one with a value that takes in every round and one with items that
wait for what follows them, are both read off the same chain
(`Parser.foldSep_foldSepRight_chain`), so they run the same parsers in the same
order, report the same events and end in the same place, and they can differ in
their value alone. Where the combining function is associative the values are
equal as well.

Positions are machine words. A round that reports a position beyond
`maxPosition` reports none that there is, and does not advance.
-/

namespace Descent

namespace Round

variable {α δ : Type} {f : α → δ → α → α}

/-- An associative function can be applied last to what stands first. -/
theorem foldLeft_combine (hf : ∀ a x b y c, f (f a x b) y c = f a x (f b y c)) (a : α) (x : δ)
    (b : α) (chain : List (Round δ α)) :
    foldLeft f (f a x b) chain = f a x (foldLeft f b chain) := by
  induction chain generalizing b with
  | nil => rw [foldLeft_nil, foldLeft_nil]
  | cons r chain ih => rw [foldLeft_cons, foldLeft_cons, hf, ih]

/-- **The folds of an associative function agree.** -/
theorem foldLeft_eq_foldRight (hf : ∀ a x b y c, f (f a x b) y c = f a x (f b y c)) (first : α)
    (chain : List (Round δ α)) : foldLeft f first chain = foldRight f first chain := by
  induction chain generalizing first with
  | nil => rw [foldLeft_nil, foldRight_nil]
  | cons r chain ih => rw [foldLeft_cons, foldRight_cons, foldLeft_combine hf, ih]

end Round

namespace Parser

variable {α δ : Type} (item : Parser α) (delimiter : Parser δ) (budget : Nat)

/-! ## Rounds and chains -/

/-- **A round**: a delimiter, and an item where the delimiter ended, which ends
strictly beyond the position that the round began at. -/
inductive Advances (env : Env) (start : Nat) (k : Knots) :
    Round δ α → List Event → Knots → Prop where
  | intro {env₁ env₂ : Env} {middle stop : Nat} {d : δ} {a : α} {log₁ log₂ : List Event}
      {k₁ k₂ : Knots}
      (delimited : delimiter.run env start budget k = .done (.ok env₁ middle d) log₁ k₁)
      (itemized : item.run env₁ middle budget k₁ = .done (.ok env₂ stop a) log₂ k₂)
      (beyond : start < stop) (word : stop ≤ maxPosition) :
      Advances env start k ⟨env₂, stop, d, a⟩ (log₁ ++ log₂) k₂

/-- **No further round**: the delimiter fails, or the item after it does, or the
two do not advance. The events tell which. -/
inductive Ends (env : Env) (start : Nat) (k : Knots) : List Event → Knots → Prop where
  | noDelimiter {message : String} {about : Option Nat} {log : List Event} {k₁ : Knots}
      (failed : delimiter.run env start budget k = .done (.fail message about) log k₁) :
      Ends env start k (log ++ [.noDelimiter start]) k₁
  | noItem {env₁ : Env} {middle : Nat} {d : δ} {message : String} {about : Option Nat}
      {log₁ log₂ : List Event} {k₁ k₂ : Knots}
      (delimited : delimiter.run env start budget k = .done (.ok env₁ middle d) log₁ k₁)
      (failed : item.run env₁ middle budget k₁ = .done (.fail message about) log₂ k₂) :
      Ends env start k (log₁ ++ log₂ ++ [.noItem start message]) k₂
  | noAdvance {env₁ env₂ : Env} {middle stop : Nat} {d : δ} {a : α} {log₁ log₂ : List Event}
      {k₁ k₂ : Knots}
      (delimited : delimiter.run env start budget k = .done (.ok env₁ middle d) log₁ k₁)
      (itemized : item.run env₁ middle budget k₁ = .done (.ok env₂ stop a) log₂ k₂)
      (still : ¬(start < stop ∧ stop ≤ maxPosition)) :
      Ends env start k (log₁ ++ log₂ ++ [.noAdvance start]) k₂

/-- **A maximal chain of rounds** from an environment, a position and a state on,
with the events that it reports and the state that it leaves. -/
inductive Chain : Env → Nat → Knots → List (Round δ α) → List Event → Knots → Prop where
  | stop {env : Env} {start : Nat} {k k' : Knots} {log : List Event}
      (ends : Ends item delimiter budget env start k log k') : Chain env start k [] log k'
  | round {env : Env} {start : Nat} {k k₁ k' : Knots} {r : Round δ α}
      {chain : List (Round δ α)} {log log' : List Event}
      (first : Advances item delimiter budget env start k r log k₁)
      (rest : Chain r.env r.stop k₁ chain log' k') :
      Chain env start k (r :: chain) (log ++ log') k'

variable {item delimiter budget}
variable {env : Env} {start : Nat} {k k' : Knots} {log : List Event}

theorem advances_eq_true_iff {start stop : Nat} :
    advances start stop = true ↔ start < stop ∧ stop ≤ maxPosition := by
  rw [advances, Bool.and_eq_true, decide_eq_true_iff, decide_eq_true_iff]

/-- What the end of a round tells: it advances, or there is no further one. -/
theorem advances_or_ends {r : Option (Round δ α)}
    (h : round item delimiter env start budget k = .done r log k') :
    (∃ round, r = some round ∧ Advances item delimiter budget env start k round log k')
      ∨ r = none ∧ Ends item delimiter budget env start k log k' := by
  rw [round, Eval.bind_eq_done_iff] at h
  obtain ⟨reply, log₁, k₁, log₂, hdelimiter, h, rfl⟩ := h
  cases reply with
  | fail message about =>
    obtain ⟨rfl, rfl, rfl⟩ := Outcome.done.inj h
    exact .inr ⟨rfl, .noDelimiter hdelimiter⟩
  | ok env₁ middle d =>
    obtain ⟨reply, log₂, k₂, log₃, hitem, h, rfl⟩ := Eval.bind_eq_done_iff.mp h
    rw [← List.append_assoc]
    cases reply with
    | fail message about =>
      obtain ⟨rfl, rfl, rfl⟩ := Outcome.done.inj h
      exact .inr ⟨rfl, .noItem hdelimiter hitem⟩
    | ok env₂ stop a =>
      by_cases hadvances : advances start stop = true
      · simp only [if_pos hadvances] at h
        obtain ⟨rfl, rfl, rfl⟩ := Outcome.done.inj h
        obtain ⟨hbeyond, hword⟩ := advances_eq_true_iff.mp hadvances
        rw [List.append_nil]
        exact .inl ⟨_, rfl, .intro hdelimiter hitem hbeyond hword⟩
      · simp only [if_neg hadvances] at h
        obtain ⟨rfl, rfl, rfl⟩ := Outcome.done.inj h
        refine .inr ⟨rfl, .noAdvance hdelimiter hitem fun hw => ?_⟩
        exact hadvances (advances_eq_true_iff.mpr hw)

/-- **A round is taken exactly when there is one.** -/
theorem round_eq_done_some_iff {r : Round δ α} :
    round item delimiter env start budget k = .done (some r) log k'
      ↔ Advances item delimiter budget env start k r log k' := by
  constructor
  · intro h
    obtain ⟨r', hr, hfirst⟩ | ⟨hr, -⟩ := advances_or_ends h
    · rwa [Option.some.inj hr]
    · exact absurd hr (Option.some_ne_none r)
  · rintro ⟨hdelimiter, hitem, hbeyond, hword⟩
    have hadvances := advances_eq_true_iff.mpr ⟨hbeyond, hword⟩
    refine Eval.bind_eq_done_iff.mpr ⟨_, _, _, _, hdelimiter, ?_, rfl⟩
    refine Eval.bind_eq_done_iff.mpr ⟨_, _, _, [], hitem, ?_, (List.append_nil _).symm⟩
    simp only [if_pos hadvances, Eval.pure_apply]

/-- **No round is taken exactly where there is no further one.** -/
theorem round_eq_done_none_iff :
    round item delimiter env start budget k = .done none log k'
      ↔ Ends item delimiter budget env start k log k' := by
  constructor
  · intro h
    obtain ⟨r, hr, -⟩ | ⟨-, hends⟩ := advances_or_ends h
    · exact absurd hr.symm (Option.some_ne_none r)
    · exact hends
  · intro h
    cases h with
    | noDelimiter failed => exact Eval.bind_eq_done_iff.mpr ⟨_, _, _, _, failed, rfl, rfl⟩
    | noItem delimited failed =>
      refine Eval.bind_eq_done_iff.mpr ⟨_, _, _, _, delimited, ?_, List.append_assoc _ _ _⟩
      exact Eval.bind_eq_done_iff.mpr ⟨_, _, _, _, failed, rfl, rfl⟩
    | @noAdvance _ _ _ _ _ _ _ _ _ _ delimited itemized still =>
      have hadvances := fun h => still (advances_eq_true_iff.mp h)
      refine Eval.bind_eq_done_iff.mpr ⟨_, _, _, _, delimited, ?_, List.append_assoc _ _ _⟩
      refine Eval.bind_eq_done_iff.mpr ⟨_, _, _, [.noAdvance start], itemized, ?_, rfl⟩
      simp only [if_neg hadvances]
      rfl

/-! ## The loop computes the chain -/

/-- A round takes some of the positions that are left. -/
theorem Advances.room {r : Round δ α} (h : Advances item delimiter budget env start k r log k') :
    maxPosition - r.stop < maxPosition - start := by
  obtain ⟨-, -, hbeyond, hword⟩ := h
  simp only []
  omega

/-- The loop ends where there is no further round. -/
theorem rounds_of_ends (left : Nat) (h : Ends item delimiter budget env start k log k') :
    rounds item delimiter left env start budget k = .done [] log k' := by
  have hnone := round_eq_done_none_iff.mpr h
  cases left with
  | zero =>
    rw [rounds, Eval.bind_eq_done_iff]
    exact ⟨_, _, _, [], hnone, rfl, (List.append_nil _).symm⟩
  | succ left =>
    rw [rounds, Eval.bind_eq_done_iff]
    exact ⟨_, _, _, [], hnone, rfl, (List.append_nil _).symm⟩

/-- The loop computes every chain, if it is allowed as many rounds as there are
positions left. -/
theorem rounds_of_chain {chain : List (Round δ α)}
    (h : Chain item delimiter budget env start k chain log k') {left : Nat}
    (hleft : maxPosition - start ≤ left) :
    rounds item delimiter left env start budget k = .done chain log k' := by
  induction h generalizing left with
  | stop ends => exact rounds_of_ends left ends
  | round first rest ih =>
    have hroom := first.room
    cases left with
    | zero => omega
    | succ left =>
      rw [rounds, Eval.bind_eq_done_iff]
      refine ⟨_, _, _, _, round_eq_done_some_iff.mpr first, ?_, rfl⟩
      have hleft' : maxPosition - _ ≤ left := Nat.le_of_lt_succ (Nat.lt_of_lt_of_le hroom hleft)
      exact Eval.bind_eq_done_iff.mpr ⟨_, _, _, [], ih hleft', rfl, (List.append_nil _).symm⟩

/-- Whatever the loop computes is a chain: the last round that is allowed cannot
advance, so nothing is cut off. -/
theorem chain_of_rounds {left : Nat} (hleft : maxPosition - start ≤ left)
    {chain : List (Round δ α)}
    (h : rounds item delimiter left env start budget k = .done chain log k') :
    Chain item delimiter budget env start k chain log k' := by
  induction left generalizing env start k chain log k' with
  | zero =>
    rw [rounds, Eval.bind_eq_done_iff] at h
    obtain ⟨r, log₁, k₁, log₂, hround, h, rfl⟩ := h
    cases r with
    | none =>
      obtain ⟨rfl, rfl, rfl⟩ := Outcome.done.inj h
      rw [List.append_nil]
      exact .stop (round_eq_done_none_iff.mp hround)
    | some r =>
      -- there is no position left to advance to
      have hroom := (round_eq_done_some_iff.mp hround).room
      omega
  | succ left ih =>
    rw [rounds, Eval.bind_eq_done_iff] at h
    obtain ⟨r, log₁, k₁, log₂, hround, h, rfl⟩ := h
    cases r with
    | none =>
      obtain ⟨rfl, rfl, rfl⟩ := Outcome.done.inj h
      rw [List.append_nil]
      exact .stop (round_eq_done_none_iff.mp hround)
    | some r =>
      have hfirst := round_eq_done_some_iff.mp hround
      have hroom := hfirst.room
      obtain ⟨rest, log₃, k₃, log₄, hrest, hcons, rfl⟩ := Eval.bind_eq_done_iff.mp h
      obtain ⟨rfl, rfl, rfl⟩ := Outcome.done.inj hcons
      rw [List.append_nil]
      exact .round hfirst (ih (by omega) hrest)

/-- **The loop computes the chain**, if it is allowed as many rounds as there are
positions left. -/
theorem rounds_eq_done_iff {left : Nat} (hleft : maxPosition - start ≤ left)
    {chain : List (Round δ α)} :
    rounds item delimiter left env start budget k = .done chain log k'
      ↔ Chain item delimiter budget env start k chain log k' :=
  ⟨chain_of_rounds hleft, fun h => rounds_of_chain h hleft⟩

/-- A round that is taken ends strictly beyond where it began, at a position. -/
theorem round_advances (item : Parser α) (delimiter : Parser δ) (env : Env) (start : Nat) :
    (round item delimiter env start).Ensures fun r =>
      ∀ r', r = some r' → start < r'.stop ∧ r'.stop ≤ maxPosition := by
  rintro n k _ log k' h r rfl
  obtain ⟨-, -, hbeyond, hword⟩ := round_eq_done_some_iff.mp h
  exact ⟨hbeyond, hword⟩

/-- From the largest position no round can be taken, however many are allowed. -/
theorem rounds_of_maxPosition_le (hstart : maxPosition ≤ start) (left : Nat) :
    rounds item delimiter left env start
      = (round item delimiter env start >>= fun _ => pure []) := by
  rw [rounds.eq_def]
  refine (round_advances item delimiter env start).bind_congr fun r hr => ?_
  cases r with
  | none => rfl
  | some r =>
    have hroom := hr r rfl
    omega

/-- **It does not matter how many rounds are allowed**, if there are as many as
positions left. -/
theorem rounds_eq_of_room {left left' : Nat} (hleft : maxPosition - start ≤ left)
    (hleft' : maxPosition - start ≤ left') :
    rounds item delimiter left env start = rounds item delimiter left' env start := by
  induction left generalizing left' env start with
  | zero =>
    have hstart : maxPosition ≤ start := by omega
    rw [rounds_of_maxPosition_le hstart, rounds_of_maxPosition_le hstart]
  | succ left ih =>
    cases left' with
    | zero =>
      have hstart : maxPosition ≤ start := by omega
      rw [rounds_of_maxPosition_le hstart, rounds_of_maxPosition_le hstart]
    | succ left' =>
      rw [rounds, rounds]
      refine (round_advances item delimiter env start).bind_congr fun r hr => ?_
      cases r with
      | none => rfl
      | some r =>
        have hroom := hr r rfl
        have hrest : rounds item delimiter left r.env r.stop
            = rounds item delimiter left' r.env r.stop := ih (by omega) (by omega)
        simp only [hrest]

/-- The chain from a place is unique: it is what the loop computes. -/
theorem Chain.unique {chain chain' : List (Round δ α)} {log' : List Event} {k'' : Knots}
    (h : Chain item delimiter budget env start k chain log k')
    (h' : Chain item delimiter budget env start k chain' log' k'') :
    chain = chain' ∧ log = log' ∧ k' = k'' := by
  have hloop := (rounds_eq_done_iff (Nat.le_refl _)).mpr h
  rw [(rounds_eq_done_iff (Nat.le_refl _)).mpr h'] at hloop
  obtain ⟨hchain, hlog, hknots⟩ := Outcome.done.inj hloop
  exact ⟨hchain.symm, hlog.symm, hknots.symm⟩

/-- A parser that always returns, whatever it replies. -/
def Total {β : Type} (p : Parser β) (budget : Nat) : Prop :=
  ∀ env start k, ∃ reply log k', p.run env start budget k = .done reply log k'

/-- Where the item and the delimiter return, either a round is taken or none is. -/
theorem exists_advances_or_ends (hitem : item.Total budget) (hdelimiter : delimiter.Total budget)
    (env : Env) (start : Nat) (k : Knots) :
    (∃ r log k', Advances item delimiter budget env start k r log k')
      ∨ ∃ log k', Ends item delimiter budget env start k log k' := by
  obtain ⟨reply, log₁, k₁, hd⟩ := hdelimiter env start k
  cases reply with
  | fail message about => exact .inr ⟨_, _, .noDelimiter hd⟩
  | ok env₁ middle d =>
    obtain ⟨reply, log₂, k₂, hi⟩ := hitem env₁ middle k₁
    cases reply with
    | fail message about => exact .inr ⟨_, _, .noItem hd hi⟩
    | ok env₂ stop a =>
      by_cases hadvances : start < stop ∧ stop ≤ maxPosition
      · exact .inl ⟨_, _, _, .intro hd hi hadvances.1 hadvances.2⟩
      · exact .inr ⟨_, _, .noAdvance hd hi hadvances⟩

/-- **There is a chain from every place** where the item and the delimiter
return. The induction is on the positions that are left: every round takes some. -/
theorem exists_chain (hitem : item.Total budget) (hdelimiter : delimiter.Total budget)
    (env : Env) (start : Nat) (k : Knots) :
    ∃ chain log k', Chain item delimiter budget env start k chain log k' := by
  induction hleft : maxPosition - start using Nat.strongRecOn generalizing env start k with
  | ind left ih =>
    obtain ⟨r, log, k₁, hfirst⟩ | ⟨log, k', hends⟩ :=
      exists_advances_or_ends hitem hdelimiter env start k
    · have hless : maxPosition - r.stop < left := hleft ▸ hfirst.room
      obtain ⟨chain, log', k', hrest⟩ := ih _ hless r.env r.stop k₁ rfl
      exact ⟨_, _, _, .round hfirst hrest⟩
    · exact ⟨[], log, k', .stop hends⟩

/-! ## The repetitions -/

/-- A first item that fails is the failure of the repetition. -/
theorem repetition_of_fail (value : α → List (Round δ α) → α) {message : String}
    {about : Option Nat} (h : item.run env start budget k = .done (.fail message about) log k') :
    (repetition item delimiter value).run env start budget k
      = .done (.fail message about) log k' :=
  Eval.bind_eq_done_iff.mpr ⟨_, _, _, [], h, rfl, (List.append_nil _).symm⟩

/-- **A repetition is done exactly when its first item fails or there is a
chain**, and its reply is read off the chain. -/
theorem repetition_eq_done_iff (value : α → List (Round δ α) → α) {env₁ : Env} {stop : Nat}
    {first : α} {log₁ : List Event} {k₁ : Knots}
    (h : item.run env start budget k = .done (.ok env₁ stop first) log₁ k₁) {reply : Reply α} :
    (repetition item delimiter value).run env start budget k = .done reply log k'
      ↔ ∃ chain log', Chain item delimiter budget env₁ stop k₁ chain log' k'
          ∧ reply = Round.reply env₁ stop chain (value first chain) ∧ log = log₁ ++ log' := by
  rw [repetition, Eval.bind_eq_done_iff]
  constructor
  · rintro ⟨r, log₂, k₂, log₃, hfirst, hrest, rfl⟩
    rw [h] at hfirst
    obtain ⟨rfl, rfl, rfl⟩ := Outcome.done.inj hfirst
    obtain ⟨chain, log₄, k₃, log₅, hchain, hreply, rfl⟩ := Eval.bind_eq_done_iff.mp hrest
    obtain ⟨rfl, rfl, rfl⟩ := Outcome.done.inj hreply
    rw [List.append_nil]
    exact ⟨chain, log₄, (rounds_eq_done_iff (Nat.le_refl _)).mp hchain, rfl, rfl⟩
  · rintro ⟨chain, log', hchain, rfl, rfl⟩
    refine ⟨_, _, _, log', h, ?_, rfl⟩
    exact Eval.bind_eq_done_iff.mpr
      ⟨_, _, _, [], (rounds_eq_done_iff (Nat.le_refl _)).mpr hchain, rfl, (List.append_nil _).symm⟩

/-- Two repetitions of the same item and delimiter stop alike: what is made of
the values is not known before the chain is. -/
theorem repetition_fault (value value' : α → List (Round δ α) → α) {cause : Fault}
    (h : (repetition item delimiter value).run env start budget k = .fault cause log k') :
    (repetition item delimiter value').run env start budget k = .fault cause log k' := by
  simp only [repetition, Eval.bind_apply] at h ⊢
  cases hfirst : item.run env start budget k with
  | exhausted => rw [hfirst] at h; exact h
  | fault cause' log₁ k₁ => rw [hfirst] at h; exact h
  | done reply log₁ k₁ =>
    rw [hfirst] at h
    cases reply with
    | fail message about => exact absurd h (by simp [Outcome.after])
    | ok env₁ stop first =>
      simp only [Eval.bind_apply] at h ⊢
      -- the loop is the same in both, and the value is made after it
      cases hloop : rounds item delimiter (maxPosition - stop) env₁ stop budget k₁ with
      | exhausted => rw [hloop] at h; exact h
      | fault cause' log₂ k₂ => rw [hloop] at h; exact h
      | done chain log₂ k₂ => rw [hloop] at h; exact absurd h (by simp [Outcome.after])

/-- **The repetitions of an item**, with their delimiters and with what they make of the
first item and the rounds. -/
inductive Repeats (item : Parser α) :
    {δ : Type} → Parser δ → (α → List (Round δ α) → α) → Parser α → Prop where
  | foldSep {δ : Type} (delimiter : Parser δ) (f : α → δ → α → α) :
      Repeats item delimiter (Round.foldLeft f) (item.foldSep delimiter f)
  | foldSepRight {δ : Type} (delimiter : Parser δ) (f : α → δ → α → α) :
      Repeats item delimiter (Round.foldRight f) (item.foldSepRight delimiter f)
  | foldMany1 (f : α → α → α) :
      Repeats item (string "") (Round.foldLeft fun acc _ a => f acc a) (item.foldMany1 f)
  | foldMany (f : α → α → α) (default : α) :
      Repeats item (string "") (Round.foldLeft fun acc _ a => f acc a) (item.foldMany f default)

variable {p : Parser α} {value : α → List (Round δ α) → α}

/-- **A repetition is the loop**, up to a default that is put in the place of a failure. -/
theorem Repeats.eq_repetition (h : Repeats item delimiter value p) :
    p = repetition item delimiter value
      ∨ ∃ default, p = (repetition item delimiter value).withDefault default := by
  cases h with
  | foldSep delimiter f => exact .inl (foldSep_eq_repetition item delimiter f)
  | foldSepRight delimiter f => exact .inl (foldSepRight_eq_repetition item delimiter f)
  | foldMany1 f => exact .inl (foldMany1_eq_repetition item f)
  | foldMany f default =>
    exact .inr ⟨default, congrArg (·.withDefault default) (foldMany1_eq_repetition item f)⟩

/-- A default reports nothing. -/
theorem exists_withDefault_of_fail {q : Parser α} (default : α) {message : String}
    {about : Option Nat} (h : q.run env start budget k = .done (.fail message about) log k') :
    ∃ reply, (q.withDefault default).run env start budget k = .done reply log k' :=
  ⟨.ok env start default,
    Eval.bind_eq_done_iff.mpr ⟨_, _, _, [], h, rfl, (List.append_nil _).symm⟩⟩

/-- **Where the first item fails**, nothing but that is reported. -/
theorem Repeats.done_of_fail (h : Repeats item delimiter value p) {message : String}
    {about : Option Nat}
    (hfail : item.run env start budget k = .done (.fail message about) log k') :
    ∃ reply, p.run env start budget k = .done reply log k' := by
  have hloop : (repetition item delimiter value).run env start budget k
      = .done (.fail message about) log k' := repetition_of_fail value hfail
  obtain rfl | ⟨default, rfl⟩ := h.eq_repetition
  · exact ⟨_, hloop⟩
  · exact exists_withDefault_of_fail default hloop

/-- A default changes nothing where there is no failure. -/
theorem withDefault_eq_done_iff {q : Parser α} {default : α}
    (hq : ∀ reply log k', q.run env start budget k = .done reply log k' →
      ∃ env' stop a, reply = .ok env' stop a) {reply : Reply α} :
    (q.withDefault default).run env start budget k = .done reply log k'
      ↔ q.run env start budget k = .done reply log k' := by
  refine Eval.bind_eq_done_iff.trans ⟨?_, fun h => ?_⟩
  · rintro ⟨reply', log₁, k₁, log₂, hdone, hreply, rfl⟩
    obtain ⟨env', stop, a, rfl⟩ := hq _ _ _ hdone
    obtain ⟨rfl, rfl, rfl⟩ := Outcome.done.inj hreply
    rwa [List.append_nil]
  · obtain ⟨env', stop, a, rfl⟩ := hq _ _ _ h
    exact ⟨_, _, _, [], h, rfl, (List.append_nil _).symm⟩

/-- **After a first item** a repetition is done exactly when there is a chain, and its
reply is read off the chain. -/
theorem Repeats.eq_done_iff (h : Repeats item delimiter value p) {env₁ : Env} {stop : Nat}
    {first : α} {log₁ : List Event} {k₁ : Knots}
    (hfirst : item.run env start budget k = .done (.ok env₁ stop first) log₁ k₁)
    {reply : Reply α} :
    p.run env start budget k = .done reply log k'
      ↔ ∃ chain log', Chain item delimiter budget env₁ stop k₁ chain log' k'
          ∧ reply = Round.reply env₁ stop chain (value first chain) ∧ log = log₁ ++ log' := by
  obtain rfl | ⟨default, rfl⟩ := h.eq_repetition
  · exact repetition_eq_done_iff value hfirst
  · refine (withDefault_eq_done_iff fun reply log k' hdone => ?_).trans
      (repetition_eq_done_iff value hfirst)
    obtain ⟨chain, log', -, rfl, -⟩ := (repetition_eq_done_iff value hfirst).mp hdone
    obtain ⟨env', stop', hreply⟩ :=
      Round.exists_reply_eq_ok env₁ stop chain (value first chain)
    exact ⟨env', stop', _, hreply⟩

/-! ## The two folds -/

/-- **What a repetition means.** A first item that fails is the failure of both
folds. After a first item that is found there is one maximal chain of rounds, and
the folds are done with its values, combined from the left and from the right, in
the environment and at the position of its last item, with the same events. They
are done only if there is a chain, which there is wherever the item and the
delimiter return, and if a parser stops the run it stops both. Where the function
is associative the two evaluations are the same. -/
theorem foldSep_foldSepRight_chain (item : Parser α) (delimiter : Parser δ) (f : α → δ → α → α)
    (budget : Nat) (env : Env) (start : Nat) (k : Knots) :
    (∀ message about log k', item.run env start budget k = .done (.fail message about) log k' →
      (item.foldSep delimiter f).run env start budget k = .done (.fail message about) log k'
      ∧ (item.foldSepRight delimiter f).run env start budget k
          = .done (.fail message about) log k')
    ∧ (∀ env₁ stop first log₁ k₁,
      item.run env start budget k = .done (.ok env₁ stop first) log₁ k₁ →
      (∀ chain log₂ k₂, Chain item delimiter budget env₁ stop k₁ chain log₂ k₂ →
        (∀ chain' log' k', Chain item delimiter budget env₁ stop k₁ chain' log' k' →
          chain' = chain)
        ∧ (item.foldSep delimiter f).run env start budget k
            = .done (Round.reply env₁ stop chain (Round.foldLeft f first chain))
                (log₁ ++ log₂) k₂
        ∧ (item.foldSepRight delimiter f).run env start budget k
            = .done (Round.reply env₁ stop chain (Round.foldRight f first chain))
                (log₁ ++ log₂) k₂)
      ∧ (∀ reply log k', (item.foldSep delimiter f).run env start budget k = .done reply log k'
          ∨ (item.foldSepRight delimiter f).run env start budget k = .done reply log k' →
        ∃ chain log₂ k₂, Chain item delimiter budget env₁ stop k₁ chain log₂ k₂)
      ∧ (item.Total budget → delimiter.Total budget →
        ∃ chain log₂ k₂, Chain item delimiter budget env₁ stop k₁ chain log₂ k₂))
    ∧ (∀ cause log k', (item.foldSep delimiter f).run env start budget k = .fault cause log k'
        ↔ (item.foldSepRight delimiter f).run env start budget k = .fault cause log k')
    ∧ ((∀ a x b y c, f (f a x b) y c = f a x (f b y c)) →
      (item.foldSep delimiter f).run env start budget k
        = (item.foldSepRight delimiter f).run env start budget k) := by
  -- each loop is taken apart by its own invariant, and the rest is about one list of rounds
  rw [foldSep_eq_repetition, foldSepRight_eq_repetition]
  refine ⟨fun message about log k' h => ?_, fun env₁ stop first log₁ k₁ h => ⟨?_, ?_, ?_⟩, ?_, ?_⟩
  · exact ⟨repetition_of_fail _ h, repetition_of_fail _ h⟩
  · intro chain log₂ k₂ hchain
    refine ⟨fun chain' log' k' hchain' => (hchain'.unique hchain).1, ?_, ?_⟩
    · exact (repetition_eq_done_iff _ h).mpr ⟨chain, log₂, hchain, rfl, rfl⟩
    · exact (repetition_eq_done_iff _ h).mpr ⟨chain, log₂, hchain, rfl, rfl⟩
  · rintro reply log k' (hdone | hdone)
    · obtain ⟨chain, log₂, hchain, -, -⟩ := (repetition_eq_done_iff _ h).mp hdone
      exact ⟨chain, log₂, k', hchain⟩
    · obtain ⟨chain, log₂, hchain, -, -⟩ := (repetition_eq_done_iff _ h).mp hdone
      exact ⟨chain, log₂, k', hchain⟩
  · intro hitem hdelimiter
    exact exists_chain hitem hdelimiter env₁ stop k₁
  · intro cause log k'
    exact ⟨repetition_fault _ _, repetition_fault _ _⟩
  · intro hf
    have hvalues : Round.foldLeft f = Round.foldRight f := by
      funext first chain
      exact Round.foldLeft_eq_foldRight hf first chain
    rw [hvalues]

/-- Two items, and a delimiter that no item follows: it is given back. -/
theorem foldSep_foldSepRight_dangling :
    let env := Env.new ['a', ',', 'a', ',']
    (∃ log, ((string "a").foldSep (string ",") fun a d b => a ++ d ++ b).run env 0 0 .initial
      = .done (.ok env 3 "a,a") log .initial)
    ∧ ((string "a").foldSep (string ",") fun a d b => a ++ d ++ b).run env 0 0 .initial
      = ((string "a").foldSepRight (string ",") fun a d b => a ++ d ++ b).run env 0 0 .initial := by
  intro env
  have hfirst : (string "a").run env 0 0 .initial = .done (.ok env 1 "a") [] .initial := rfl
  have hcomma : (string ",").run env 1 0 .initial = .done (.ok env 2 ",") [] .initial := rfl
  have hitem : (string "a").run env 2 0 .initial = .done (.ok env 3 "a") [] .initial := rfl
  have hcomma' : (string ",").run env 3 0 .initial = .done (.ok env 4 ",") [] .initial := rfl
  have hnone : (string "a").run env 4 0 .initial
      = .done (.fail "Does not match a" (some 4)) [] .initial := rfl
  have hchain := Chain.round (.intro hcomma hitem (by decide) (by decide))
    (.stop (.noItem hcomma' hnone))
  have hmeaning := foldSep_foldSepRight_chain (string "a") (string ",")
    (fun a d b => a ++ d ++ b) 0 env 0 .initial
  obtain ⟨-, hleft, -⟩ := (hmeaning.2.1 env 1 "a" [] .initial hfirst).1 _ _ _ hchain
  refine ⟨⟨_, hleft⟩, hmeaning.2.2.2 fun a x b y c => ?_⟩
  simp only [String.append_assoc]

end Parser

end Descent
