import Descent.Parser.Run
import Descent.Proofs.Evaluation
import Descent.Proofs.Rounds

/-!
# What parsers read

A parser of a language is known by the texts that it reads. `Parser.Reads` says
that a parser reads a text where it is followed by another, `Parser.Rejects`
that it fails at a text, and `Parser.Decides` that it does one of the two, and
that whatever it reads satisfies a predicate together with the value. All three
are total: the parser returns, at every budget.

What a parser reads may depend on what follows. A parser takes as much as it can
and never takes less later, so the rules for sequences tell each part what comes
after it, and those for repetitions tell what the repetition ends with.
-/

namespace Descent

/-- Text is found after what was read before it. -/
theorem Env.from?_add {e : Env} {n : Nat} {u v : Text} (h : e.from? n = some (u ++ v)) :
    e.from? (n + Text.size u) = some v := by
  obtain ⟨a, ha, rfl⟩ := Text.eq_append_of_from? h
  rw [Env.from?, ha, ← List.append_assoc, ← Text.size_append]
  exact Text.from?_size_append (a ++ u) v

/-- What is left ends where the subject does. -/
theorem Env.add_size_eq {e : Env} {n : Nat} {rest : Text} (h : e.from? n = some rest) :
    n + Text.size rest = e.length := by
  obtain ⟨a, ha, rfl⟩ := Text.eq_append_of_from? h
  rw [Env.length, ha, Text.size_append]

namespace Parser

variable {α β δ : Type} {scope n : Nat} {e : Env} {rest : Text} {p : Parser α} {q : Parser β}

/-- **The parser reads a text** where it is followed by another, and yields a value. -/
def Reads (scope : Nat) (e : Env) (p : Parser α) (u : Text) (a : α) (v : Text) : Prop :=
  ∀ n, e.from? n = some (u ++ v) →
    (p.run e n).Yields scope fun r => r = .ok e (n + Text.size u) a

/-- The parser fails at a text. -/
def Rejects (scope : Nat) (e : Env) (p : Parser α) (rest : Text) : Prop :=
  ∀ n, e.from? n = some rest →
    (p.run e n).Yields scope fun r => ∃ message about, r = .fail message about

/-- **The parser decides a text**: it fails there, or reads an initial segment of it
that satisfies a predicate together with the value. -/
def Decides (scope : Nat) (e : Env) (p : Parser α) (rest : Text) (Q : Text → α → Prop) : Prop :=
  ∀ n, e.from? n = some rest →
    (p.run e n).Yields scope fun r =>
      (∃ u v a, rest = u ++ v ∧ Q u a ∧ r = .ok e (n + Text.size u) a)
      ∨ ∃ message about, r = .fail message about

/-! ## Sequences and alternatives -/

theorem Reads.bind {f : α → Parser β} {u w v : Text} {a : α} {c : β}
    (hp : Reads scope e p u a (w ++ v)) (hf : Reads scope e (f a) w c v) :
    Reads scope e (p.bind f) (u ++ w) c v := by
  intro n hn
  rw [List.append_assoc] at hn
  refine .bind (hp n hn) fun r hr => ?_
  rw [hr, Text.size_append, ← Nat.add_assoc]
  exact hf _ (Env.from?_add hn)

theorem Reads.seqRight {u w v : Text} {a : α} {c : β} (hp : Reads scope e p u a (w ++ v))
    (hq : Reads scope e q w c v) : Reads scope e (p.seqRight q) (u ++ w) c v :=
  hp.bind hq

theorem Reads.seqLeft {u w v : Text} {a : α} {c : β} (hp : Reads scope e p u a (w ++ v))
    (hq : Reads scope e q w c v) : Reads scope e (p.seqLeft q) (u ++ w) a v := by
  intro n hn
  rw [List.append_assoc] at hn
  refine .bind (hp n hn) fun r hr => ?_
  rw [hr]
  refine .bind (hq _ (Env.from?_add hn)) fun r hr => ?_
  rw [hr, Text.size_append, ← Nat.add_assoc]
  exact .pure rfl

/-- What the first alternative reads. -/
theorem Reads.orElse_left {p' : Parser α} {u v : Text} {a : α} (hp : Reads scope e p u a v) :
    Reads scope e (p.orElse p') u a v := by
  intro n hn
  refine .bind (hp n hn) fun r hr => ?_
  rw [hr]
  exact .pure rfl

/-- What the second alternative reads where the first one fails. -/
theorem Reads.orElse_right {p' : Parser α} {u v : Text} {a : α} (hp : Rejects scope e p (u ++ v))
    (hp' : Reads scope e p' u a v) : Reads scope e (p.orElse p') u a v := by
  intro n hn
  refine .bind (hp n hn) fun r hr => ?_
  obtain ⟨message, about, rfl⟩ := hr
  exact .bind (.emit _) fun _ _ => hp' n hn

theorem Decides.mono {Q Q' : Text → α → Prop} (hp : Decides scope e p rest Q)
    (h : ∀ u a, Q u a → Q' u a) : Decides scope e p rest Q' := by
  intro n hn
  refine (hp n hn).mono fun r hr => ?_
  obtain ⟨u, v, a, hrest, ha, hr⟩ | hr := hr
  · exact .inl ⟨u, v, a, hrest, h u a ha, hr⟩
  · exact .inr hr

theorem Decides.bind {f : α → Parser β} {Q : Text → α → Prop}
    {Q' : α → Text → β → Prop} {Q'' : Text → β → Prop} (hp : Decides scope e p rest Q)
    (hf : ∀ u v a, rest = u ++ v → Q u a → Decides scope e (f a) v (Q' a))
    (h : ∀ u w a c, Q u a → Q' a w c → Q'' (u ++ w) c) : Decides scope e (p.bind f) rest Q'' := by
  intro n hn
  refine .bind (hp n hn) fun r hr => ?_
  obtain ⟨u, v, a, rfl, ha, rfl⟩ | ⟨message, about, rfl⟩ := hr
  · refine (hf u v a rfl ha _ (Env.from?_add hn)).mono fun r hr => ?_
    obtain ⟨w, x, c, rfl, hc, rfl⟩ | hr := hr
    · refine .inl ⟨u ++ w, x, c, (List.append_assoc _ _ _).symm, h u w a c ha hc, ?_⟩
      rw [Text.size_append, Nat.add_assoc]
    · exact .inr hr
  · exact .pure (.inr ⟨_, _, rfl⟩)

theorem Decides.map {Q : Text → α → Prop} (f : α → β) (hp : Decides scope e p rest Q) :
    Decides scope e (p.map f) rest fun u c => ∃ a, Q u a ∧ c = f a := by
  intro n hn
  refine .bind (hp n hn) fun r hr => .pure ?_
  obtain ⟨u, v, a, rfl, ha, rfl⟩ | ⟨message, about, rfl⟩ := hr
  · exact .inl ⟨u, v, f a, rfl, ⟨a, ha, rfl⟩, rfl⟩
  · exact .inr ⟨_, _, rfl⟩

theorem Decides.seqRight {Q : Text → α → Prop} {Q' : Text → β → Prop}
    {Q'' : Text → β → Prop} (hp : Decides scope e p rest Q)
    (hq : ∀ u v a, rest = u ++ v → Q u a → Decides scope e q v Q')
    (h : ∀ u w a c, Q u a → Q' w c → Q'' (u ++ w) c) : Decides scope e (p.seqRight q) rest Q'' :=
  hp.bind hq h

theorem Decides.seqLeft {Q : Text → α → Prop} {Q' : Text → β → Prop}
    {Q'' : Text → α → Prop} (hp : Decides scope e p rest Q)
    (hq : ∀ u v a, rest = u ++ v → Q u a → Decides scope e q v Q')
    (h : ∀ u w a c, Q u a → Q' w c → Q'' (u ++ w) a) : Decides scope e (p.seqLeft q) rest Q'' := by
  rw [Parser.seqLeft_eq_bind]
  refine hp.bind (fun u v a hrest ha => (hq u v a hrest ha).map fun _ => a) ?_
  rintro u w a _ ha ⟨c, hc, rfl⟩
  exact h u w _ c ha hc

theorem Decides.orElse {p' : Parser α} {Q : Text → α → Prop}
    (hp : Decides scope e p rest Q) (hp' : Decides scope e p' rest Q) :
    Decides scope e (p.orElse p') rest Q := by
  intro n hn
  refine .bind (hp n hn) fun r hr => ?_
  obtain ⟨u, v, a, rfl, ha, rfl⟩ | ⟨message, about, rfl⟩ := hr
  · exact .pure (.inl ⟨u, v, a, rfl, ha, rfl⟩)
  · exact .bind (.emit _) fun _ _ => hp' n hn

/-! ## Repetitions -/

variable {item : Parser α} {delimiter : Parser δ} {f : α → δ → α → α}

/-- No round is taken where no delimiter stands. -/
theorem Rejects.round (h : Rejects scope e delimiter rest) (hn : e.from? n = some rest) :
    (Parser.round item delimiter e n).Yields scope fun r => r = none := by
  refine .bind (h n hn) fun r hr => ?_
  obtain ⟨message, about, rfl⟩ := hr
  exact .bind (.emit _) fun _ _ => .pure rfl

/-- A delimiter and an item are a round, if the subject is not too long. -/
theorem Reads.round {u₁ u₂ v : Text} {d : δ} {y : α} (hlength : e.length ≤ maxPosition)
    (hsize : 0 < Text.size (u₁ ++ u₂)) (hdelimiter : Reads scope e delimiter u₁ d (u₂ ++ v))
    (hitem : Reads scope e item u₂ y v) (hn : e.from? n = some (u₁ ++ (u₂ ++ v))) :
    (Parser.round item delimiter e n).Yields scope fun r =>
      r = some ⟨e, n + Text.size u₁ + Text.size u₂, d, y⟩ := by
  have hend := Env.add_size_eq hn
  simp only [Text.size_append] at hend hsize
  refine .bind (hdelimiter n hn) fun r hr => ?_
  rw [hr]
  refine .bind (hitem _ (Env.from?_add hn)) fun r hr => ?_
  rw [hr]
  have hadvances : Parser.advances n (n + Text.size u₁ + Text.size u₂) = true := by
    simp only [Parser.advances, Bool.and_eq_true, decide_eq_true_eq]
    omega
  simp only [if_pos hadvances]
  exact .pure rfl

/-- A round that is taken is a delimiter and an item. -/
theorem Decides.round {D : Text → δ → Prop} {I : Text → α → Prop}
    (hdelimiter : Decides scope e delimiter rest D)
    (hitem : ∀ u v, rest = u ++ v → Decides scope e item v I) (hn : e.from? n = some rest) :
    (Parser.round item delimiter e n).Yields scope fun r =>
      r = none ∨ ∃ u₁ d u₂ y v, rest = u₁ ++ (u₂ ++ v) ∧ D u₁ d ∧ I u₂ y
        ∧ r = some ⟨e, n + Text.size u₁ + Text.size u₂, d, y⟩ := by
  refine .bind (hdelimiter n hn) fun r hr => ?_
  obtain ⟨u₁, v, d, rfl, hd, rfl⟩ | ⟨message, about, rfl⟩ := hr
  · refine .bind (hitem u₁ v rfl _ (Env.from?_add hn)) fun r hr => ?_
    obtain ⟨u₂, v, y, rfl, hy, rfl⟩ | ⟨message, about, rfl⟩ := hr
    · by_cases hadvances : Parser.advances n (n + Text.size u₁ + Text.size u₂) = true
      · simp only [if_pos hadvances]
        exact .pure (.inr ⟨u₁, d, u₂, y, v, rfl, hd, hy, rfl⟩)
      · simp only [if_neg hadvances]
        exact .bind (.emit _) fun _ _ => .pure (.inl rfl)
    · exact .bind (.emit _) fun _ _ => .pure (.inl rfl)
  · exact .bind (.emit _) fun _ _ => .pure (.inl rfl)

/-- **Rounds that read a text**: their delimiters and items are combined with a value,
and they end where the text does. -/
def ReadsRest (scope : Nat) (e : Env) (item : Parser α) (delimiter : Parser δ)
    (f : α → δ → α → α) (w v : Text) (acc x : α) : Prop :=
  ∀ left n, Text.size w ≤ left → e.from? n = some (w ++ v) →
    (Parser.rounds item delimiter left e n).Yields scope fun chain =>
      Round.foldLeft f acc chain = x
      ∧ ∀ a, Round.reply e n chain a = .ok e (n + Text.size w) a

/-- Nothing is read by rounds where no delimiter stands. -/
theorem ReadsRest.nil {v : Text} {acc : α} (h : Rejects scope e delimiter v) :
    ReadsRest scope e item delimiter f [] v acc acc := by
  intro left n _ hn
  unfold Parser.rounds
  refine .bind (h.round hn) fun r hr => ?_
  rw [hr]
  exact .pure ⟨rfl, fun a => rfl⟩

/-- One round more is read before the others. -/
theorem ReadsRest.cons {u₁ u₂ w v : Text} {d : δ} {acc y x : α}
    (hlength : e.length ≤ maxPosition) (hsize : 0 < Text.size (u₁ ++ u₂))
    (hdelimiter : Reads scope e delimiter u₁ d (u₂ ++ (w ++ v)))
    (hitem : Reads scope e item u₂ y (w ++ v))
    (hrest : ReadsRest scope e item delimiter f w v (f acc d y) x) :
    ReadsRest scope e item delimiter f (u₁ ++ (u₂ ++ w)) v acc x := by
  intro left n hleft hn
  simp only [List.append_assoc] at hn
  have hround := hdelimiter.round hlength hsize hitem hn
  simp only [Text.size_append] at hleft hsize
  cases left with
  | zero => omega
  | succ left =>
    unfold Parser.rounds
    refine .bind hround fun r hr => ?_
    rw [hr]
    have hnext := hrest left (n + Text.size u₁ + Text.size u₂) (by omega)
      (Env.from?_add (Env.from?_add hn))
    refine .bind hnext fun chain hchain => .pure ⟨hchain.1, fun a => ?_⟩
    show Round.reply e (n + Text.size u₁ + Text.size u₂) chain a = _
    rw [hchain.2 a]
    simp only [Text.size_append, Nat.add_assoc]

/-- An item and the rounds after it. -/
theorem Reads.foldSep {u w v : Text} {y x : α} (hlength : e.length ≤ maxPosition)
    (hitem : Reads scope e item u y (w ++ v))
    (hrest : ReadsRest scope e item delimiter f w v y x) :
    Reads scope e (item.foldSep delimiter f) (u ++ w) x v := by
  rw [foldSep_eq_repetition]
  intro n hn
  have hend := Env.add_size_eq hn
  simp only [List.append_assoc, Text.size_append] at hn hend
  refine .bind (hitem n hn) fun r hr => ?_
  rw [hr]
  refine .bind (hrest _ _ (by omega) (Env.from?_add hn)) fun chain hchain => .pure ?_
  rw [hchain.2, hchain.1, Text.size_append, Nat.add_assoc]

/-- **Rounds decide a text**: whatever they read satisfies a predicate together with
what they make of a value. -/
def DecidesRest (scope : Nat) (e : Env) (item : Parser α) (delimiter : Parser δ)
    (f : α → δ → α → α) (rest : Text) (Q : Text → (α → α) → Prop) : Prop :=
  ∀ left n, e.from? n = some rest →
    (Parser.rounds item delimiter left e n).Yields scope fun chain =>
      ∃ w v, rest = w ++ v ∧ Q w (fun acc => Round.foldLeft f acc chain)
      ∧ ∀ a, Round.reply e n chain a = .ok e (n + Text.size w) a

/-- **Rounds are decided by their delimiters and items**, on every end of a text.
The induction is on the rounds that are allowed; a round that is not taken leaves
what the rounds before it read. -/
theorem decidesRest {S : Text → Prop} {D : Text → δ → Prop} {I : Text → α → Prop}
    {Q : Text → (α → α) → Prop} (hS : ∀ u v, S (u ++ v) → S v)
    (hdelimiter : ∀ rest, S rest → Decides scope e delimiter rest D)
    (hitem : ∀ rest, S rest → Decides scope e item rest I) (hnil : Q [] fun acc => acc)
    (hcons : ∀ u₁ d u₂ y w g, D u₁ d → I u₂ y → Q w g →
      Q (u₁ ++ (u₂ ++ w)) fun acc => g (f acc d y))
    (hrest : S rest) : DecidesRest scope e item delimiter f rest Q := by
  have hround : ∀ {n : Nat} {rest : Text}, S rest → e.from? n = some rest →
      (Parser.round item delimiter e n).Yields scope fun r =>
        r = none ∨ ∃ u₁ d u₂ y v, rest = u₁ ++ (u₂ ++ v) ∧ D u₁ d ∧ I u₂ y
          ∧ r = some ⟨e, n + Text.size u₁ + Text.size u₂, d, y⟩ :=
    fun h hn => (hdelimiter _ h).round (fun u v huv => hitem v (hS u v (huv ▸ h))) hn
  intro left
  induction left generalizing rest with
  | zero =>
    intro n hn
    unfold Parser.rounds
    refine .bind (hround hrest hn) fun r hr => ?_
    -- what a round read that is not allowed any more is given back
    obtain rfl | ⟨u₁, d, u₂, y, v, -, -, -, rfl⟩ := hr
    · exact .pure ⟨[], rest, rfl, hnil, fun _ => rfl⟩
    · exact .pure ⟨[], rest, rfl, hnil, fun _ => rfl⟩
  | succ left ih =>
    intro n hn
    unfold Parser.rounds
    refine .bind (hround hrest hn) fun r hr => ?_
    obtain rfl | ⟨u₁, d, u₂, y, v, rfl, hd, hy, rfl⟩ := hr
    · exact .pure ⟨[], rest, rfl, hnil, fun _ => rfl⟩
    · have hv : S v := hS u₂ v (hS u₁ _ hrest)
      refine .bind (ih hv _ (Env.from?_add (Env.from?_add hn))) fun chain hchain => .pure ?_
      obtain ⟨w, v, rfl, hw, hreply⟩ := hchain
      refine ⟨u₁ ++ (u₂ ++ w), v, by simp only [List.append_assoc],
        hcons u₁ d u₂ y w _ hd hy hw, fun a => ?_⟩
      show Round.reply e (n + Text.size u₁ + Text.size u₂) chain a = _
      rw [hreply a]
      simp only [Text.size_append, Nat.add_assoc]

theorem Decides.foldSep {Q : Text → α → Prop} {Q' : Text → (α → α) → Prop}
    {Q'' : Text → α → Prop} (hitem : Decides scope e item rest Q)
    (hrest : ∀ u v, rest = u ++ v → DecidesRest scope e item delimiter f v Q')
    (h : ∀ u w a g, Q u a → Q' w g → Q'' (u ++ w) (g a)) :
    Decides scope e (item.foldSep delimiter f) rest Q'' := by
  rw [foldSep_eq_repetition]
  intro n hn
  refine .bind (hitem n hn) fun r hr => ?_
  obtain ⟨u, v, a, rfl, ha, rfl⟩ | ⟨message, about, rfl⟩ := hr
  · refine .bind (hrest u v rfl _ _ (Env.from?_add hn)) fun chain hchain => .pure (.inl ?_)
    obtain ⟨w, v, rfl, hw, hreply⟩ := hchain
    refine ⟨u ++ w, v, _, (List.append_assoc _ _ _).symm, h u w a _ ha hw, ?_⟩
    rw [hreply, Text.size_append, Nat.add_assoc]
  · exact .pure (.inr ⟨_, _, rfl⟩)

/-! ## Runs -/

/-- A run from a position of its subject yields the reply of the parser. -/
theorem yields_runIn {Q : Reply α → Prop} (hn : e.from? n = some rest)
    (h : (p.run e n).Yields scope Q) :
    (p.runIn e n).Yields scope fun result => ∃ reply, result = .ok reply ∧ Q reply := by
  have hstart : ¬e.length < n := by
    have hend := Env.add_size_eq hn
    omega
  unfold Parser.runIn
  simp only [hn, if_neg hstart, Option.isNone_some, Bool.false_eq_true, if_false]
  refine .bind (.emit _) fun _ _ => .bind h fun reply hreply => .bind (.emit _) fun _ _ => ?_
  exact .pure ⟨reply, rfl, hreply⟩

end Parser

end Descent
