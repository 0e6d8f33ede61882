import Descent.Parser.Token
import Descent.Proofs.Evaluation

/-!
# What comes of a token

A token skips and then leaves everything to its reader, so what comes of it is told by
the end of the skipping and by what the reader says of the text there. The lemmas here
take a token apart into these two, in every environment and also where skipping runs a
recursive grammar; nothing else needs to look into `Parser.token`.
-/

namespace Descent

@[simp] theorem Match.text_here (text : Text) : (Match.here text).text = text := rfl

namespace Parser

variable {env env' : Env} {n start stop budget : Nat} {v : String} {rest : Text}
variable {k k' : Knots} {log : List Event} {read read' : Reader}

/-- **A token looks at what stands** where skipping ends. -/
theorem token_run_of_done (hskip : env.skipFrom n budget k = .done start log k') (read : Reader)
    (message : String) : (token read message).run env n budget k
      = .done (match (env.from? start).bind read with
        | some m => .ok env (start + m.size) (String.ofList m.text)
        | none => .fail message (some n)) log k' := by
  refine Eval.bind_eq_done_iff.mpr ⟨start, log, k', [], hskip, ?_, (List.append_nil log).symm⟩
  cases (env.from? start).bind read <;> rfl

/-- A token is a computation without effects where skipping is. -/
theorem token_run_of_skipFrom (hskip : env.skipFrom n = pure start)
    (hrest : env.from? start = some rest) (read : Reader) (message : String) :
    (token read message).run env n
      = pure (match read rest with
        | some m => .ok env (start + m.size) (String.ofList m.text)
        | none => .fail message (some n)) := by
  funext budget k
  rw [token_run_of_done (congrFun (congrFun hskip budget) k), hrest, Option.bind_some]
  rfl

/-- A token that is done has skipped, and its reply is the one of its reader. -/
theorem token_run_eq_done {message : String} {reply : Reply String}
    (h : (token read message).run env n budget k = .done reply log k') :
    ∃ start, env.skipFrom n budget k = .done start log k'
      ∧ reply = match (env.from? start).bind read with
        | some m => .ok env (start + m.size) (String.ofList m.text)
        | none => .fail message (some n) := by
  obtain ⟨start, log₁, k₁, log₂, hskip, -, -⟩ := Eval.bind_eq_done_iff.mp h
  rw [token_run_of_done hskip] at h
  obtain ⟨hreply, rfl, rfl⟩ := Outcome.done.inj h
  exact ⟨start, hskip, hreply.symm⟩

/-- A token ends behind what its reader passed over and matched where skipping had ended. -/
theorem token_run_eq_ok {message : String}
    (h : (token read message).run env n budget k = .done (.ok env' stop v) log k') :
    ∃ start rest m, env.skipFrom n budget k = .done start log k' ∧ env.from? start = some rest
      ∧ read rest = some m ∧ env' = env ∧ stop = start + m.size ∧ v.toList = m.text := by
  obtain ⟨start, hskip, hreply⟩ := token_run_eq_done h
  cases hm : (env.from? start).bind read with
  | none =>
    rw [hm] at hreply
    cases hreply
  | some m =>
    rw [hm] at hreply
    cases hreply
    obtain ⟨rest, hrest, hfound⟩ := Option.bind_eq_some_iff.mp hm
    exact ⟨start, rest, m, hskip, hrest, hfound, rfl, rfl, String.toList_ofList⟩

/-- **Where a reader finds all that another one finds**, its token succeeds whenever the
other one does, with the same end and value. -/
theorem token_run_of_imp (hread : ∀ rest m, read rest = some m → read' rest = some m)
    {message message' : String}
    (h : (token read message).run env n budget k = .done (.ok env' stop v) log k') :
    (token read' message').run env n budget k = .done (.ok env' stop v) log k' := by
  obtain ⟨start, rest, m, hskip, hrest, hfound, rfl, rfl, hv⟩ := token_run_eq_ok h
  obtain rfl : String.ofList m.text = v := by rw [← hv, String.ofList_toList]
  rw [token_run_of_done hskip, hrest, Option.bind_some, hread rest m hfound]

end Parser

end Descent
