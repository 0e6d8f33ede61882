import Descent.Parser.Repetition

/-!
# The rounds of a repetition

The two folds of a repetition are loops of their own: one keeps the value so far, the
other keeps the items that wait for what follows them. Here both are taken apart into
the rounds that they run and the value that they make. `Parser.rounds` runs the rounds
and makes a list of them; `Round.foldLeft` and `Round.foldRight` fold such a list.

Between two rounds a loop holds what it has made of the rounds before, and that is its
invariant. For the left fold it is a value (`Parser.accumulate_eq_rounds`). For the
right fold it is a function of the value that the remaining rounds will have: what waits
is put around it, the item that came last innermost (`Parser.collect_eq_rounds`). A
repetition begins with nothing waiting, so it comes to the fold of all its rounds
(`Parser.foldSep_eq_repetition`, `Parser.foldSepRight_eq_repetition`), and whatever
holds of `Parser.repetition` for every value made of the rounds holds of both.
-/

namespace Descent

namespace Round

variable {α δ : Type}

/-- The values of a chain folded from the left. -/
def foldLeft (f : α → δ → α → α) (first : α) (chain : List (Round δ α)) : α :=
  chain.foldl (fun acc r => f acc r.delimiter r.item) first

/-- The values of a chain folded from the right. -/
def foldRight (f : α → δ → α → α) : (first : α) → List (Round δ α) → α
  | first, [] => first
  | first, r :: chain => f first r.delimiter (foldRight f r.item chain)

@[simp] theorem foldLeft_nil (f : α → δ → α → α) (first : α) :
    foldLeft f first ([] : List (Round δ α)) = first := rfl

@[simp] theorem foldLeft_cons (f : α → δ → α → α) (first : α) (r : Round δ α)
    (chain : List (Round δ α)) :
    foldLeft f first (r :: chain) = foldLeft f (f first r.delimiter r.item) chain := rfl

@[simp] theorem foldRight_nil (f : α → δ → α → α) (first : α) :
    foldRight f first ([] : List (Round δ α)) = first := rfl

@[simp] theorem foldRight_cons (f : α → δ → α → α) (first : α) (r : Round δ α)
    (chain : List (Round δ α)) :
    foldRight f first (r :: chain) = f first r.delimiter (foldRight f r.item chain) := rfl

/-- The reply at the end of a chain that began at an environment and a position. -/
def reply : Env → Nat → List (Round δ α) → α → Reply α
  | env, stop, [], a => .ok env stop a
  | _, _, r :: chain, a => reply r.env r.stop chain a

/-- The reply at the end of a chain is no failure. -/
theorem exists_reply_eq_ok (env : Env) (n : Nat) (chain : List (Round δ α)) (a : α) :
    ∃ env' stop, reply env n chain a = .ok env' stop a := by
  induction chain generalizing env n with
  | nil => exact ⟨env, n, rfl⟩
  | cons r chain ih => exact ih r.env r.stop

end Round

namespace Parser

variable {α δ : Type}

/-- The chain of rounds from a position on, at most so many. -/
def rounds (item : Parser α) (delimiter : Parser δ) : Nat → Env → Nat → Eval (List (Round δ α))
  | left, env, start => do
    match ← round item delimiter env start with
    | none => pure []
    | some r =>
      match left with
      | 0 => pure []
      | left + 1 => return r :: (← rounds item delimiter left r.env r.stop)

/-- An item, a chain of rounds, and a value made of them. -/
def repetition (item : Parser α) (delimiter : Parser δ)
    (value : α → List (Round δ α) → α) : Parser α := ⟨fun env start => do
  match ← item.run env start with
  | .ok env stop first =>
    let chain ← rounds item delimiter (maxPosition - stop) env stop
    pure (Round.reply env stop chain (value first chain))
  | .fail message about => pure (.fail message about)⟩

variable (item : Parser α) (delimiter : Parser δ) (f : α → δ → α → α)

/-! ## The two loops -/

/-- Where no round is allowed any more, one is tried all the same, and given back. -/
theorem rounds_zero_bind {β : Type} (env : Env) (start : Nat) (go : List (Round δ α) → Eval β) :
    (rounds item delimiter 0 env start >>= go)
      = round item delimiter env start >>= fun _ => go [] := by
  unfold rounds
  refine (Eval.bind_assoc _ _ _).trans
    (congrArg (round item delimiter env start >>= ·) (funext fun r => ?_))
  cases r with
  | none => exact Eval.pure_bind _ _
  | some r => exact Eval.pure_bind _ _

/-- A chain is no round, or a first round and the chain from its end on. -/
theorem rounds_succ_bind {β : Type} (left : Nat) (env : Env) (start : Nat)
    (go : List (Round δ α) → Eval β) :
    (rounds item delimiter (left + 1) env start >>= go)
      = round item delimiter env start >>= fun
        | none => go []
        | some r => rounds item delimiter left r.env r.stop >>= fun chain => go (r :: chain) := by
  rw [rounds]
  refine (Eval.bind_assoc _ _ _).trans
    (congrArg (round item delimiter env start >>= ·) (funext fun r => ?_))
  cases r with
  | none => exact Eval.pure_bind _ _
  | some r =>
    refine (Eval.bind_assoc _ _ _).trans
      (congrArg (rounds item delimiter left r.env r.stop >>= ·) (funext fun chain => ?_))
    exact Eval.pure_bind _ _

/-- **The left fold accumulates**: from any place on, what the loop makes of the value so
far is the fold of the rounds from there. The induction is on the rounds that are allowed. -/
theorem accumulate_eq_rounds (left : Nat) (env : Env) (start : Nat) (acc : α) :
    accumulate item delimiter f left env start acc
      = rounds item delimiter left env start >>= fun chain =>
          pure (Round.reply env start chain (Round.foldLeft f acc chain)) := by
  induction left generalizing env start acc with
  | zero =>
    rw [accumulate, rounds_zero_bind]
    refine congrArg (round item delimiter env start >>= ·) (funext fun r => ?_)
    cases r with
    | none => rfl
    | some r => rfl
  | succ left ih =>
    rw [accumulate, rounds_succ_bind]
    refine congrArg (round item delimiter env start >>= ·) (funext fun r => ?_)
    cases r with
    | none => rfl
    | some r => exact ih r.env r.stop (f acc r.delimiter r.item)

/-- What came last to those that wait is combined before all the others. -/
theorem replay_push (last : α) (pending : Array (α × δ)) (a : α) (d : δ) :
    replay f last (pending.push (a, d)) = replay f (f a d last) pending := by
  rw [replay, replay, Array.foldl_reverse, Array.foldl_reverse, Array.foldr_push]

/-- **The right fold collects**: from any place on, the loop puts what waits around the
fold of the last item and the rounds from there. The induction is on the rounds that are
allowed; an item that begins to wait moves from the rounds into what waits. -/
theorem collect_eq_rounds (left : Nat) (env : Env) (start : Nat) (pending : Array (α × δ))
    (last : α) :
    collect item delimiter f left env start pending last
      = rounds item delimiter left env start >>= fun chain =>
          pure (Round.reply env start chain (replay f (Round.foldRight f last chain) pending)) := by
  induction left generalizing env start pending last with
  | zero =>
    rw [collect, rounds_zero_bind]
    refine congrArg (round item delimiter env start >>= ·) (funext fun r => ?_)
    cases r with
    | none => rfl
    | some r => rfl
  | succ left ih =>
    rw [collect, rounds_succ_bind]
    refine congrArg (round item delimiter env start >>= ·) (funext fun r => ?_)
    cases r with
    | none => rfl
    | some r =>
      refine (ih r.env r.stop (pending.push (last, r.delimiter)) r.item).trans
        (congrArg (rounds item delimiter left r.env r.stop >>= ·) (funext fun chain => ?_))
      rw [replay_push]
      rfl

/-! ## The two folds -/

/-- **Folded from the left** is the rounds, folded from the left. -/
theorem foldSep_eq_repetition :
    foldSep item delimiter f = repetition item delimiter (Round.foldLeft f) := by
  ext env start
  refine congrArg (item.run env start >>= ·) (funext fun reply => ?_)
  cases reply with
  | ok env stop first => exact accumulate_eq_rounds item delimiter f _ env stop first
  | fail message about => rfl

/-- **Folded from the right** is the rounds, folded from the right. -/
theorem foldSepRight_eq_repetition :
    foldSepRight item delimiter f = repetition item delimiter (Round.foldRight f) := by
  ext env start
  refine congrArg (item.run env start >>= ·) (funext fun reply => ?_)
  cases reply with
  | ok env stop first => exact collect_eq_rounds item delimiter f _ env stop #[] first
  | fail message about => rfl

/-- Adjacent items are items with the empty text between them. -/
theorem foldMany1_eq_repetition (f : α → α → α) :
    foldMany1 item f = repetition item (string "") (Round.foldLeft fun acc _ a => f acc a) :=
  foldSep_eq_repetition item (string "") _

end Parser

end Descent
