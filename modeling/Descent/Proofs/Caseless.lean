import Descent.Proofs.Tokens

/-!
# Matching up to case

Small letters are not made character by character: one letter may have two of them, and
a sigma looks at the letters around it. So the text that is compared is cut out of the
subject before it is lowered, by the number of characters, and what is compared is the
two lowered texts as wholes. `Reader.sameLetters_eq_some_iff` is that comparison with
the cut undone: some text of as many characters stands there, and it has the same small
letters.

Everything that is said about matching up to case follows from it. It **extends exact
matching**, since a text has the small letters that it has; a match **is the stretch of
the subject** that it ends with, as it stands there; and between whole texts it is an
**equivalence** (`SameUpToCase`), since it compares one and the same thing of both, the
number of characters and the small letters (`sameUpToCase_iff`).
-/

namespace Descent

/-- **Text up to case is found** where a text of as many characters and with the same
small letters stands. -/
theorem Reader.sameLetters_eq_some_iff {expected rest : Text} {m : Match} :
    Reader.sameLetters expected rest = some m
      ↔ ∃ text after, rest = text ++ after ∧ m = .here text ∧ text.length = expected.length
          ∧ Unicode.lower text = Unicode.lower expected := by
  rw [Reader.sameLetters]
  constructor
  · intro h
    split at h
    · next hsame =>
      exact ⟨_, _, (List.take_append_drop expected.length rest).symm, (Option.some.inj h).symm,
        hsame⟩
    · cases h
  · rintro ⟨text, after, rfl, rfl, hlength, hlower⟩
    rw [← hlength, List.take_left]
    exact if_pos ⟨rfl, hlower⟩

/-- Exact text is found up to case. -/
theorem Reader.sameLetters_of_exact {expected rest : Text} {m : Match}
    (h : Reader.exact expected rest = some m) : Reader.sameLetters expected rest = some m := by
  obtain ⟨left, hleft, rfl⟩ := Option.map_eq_some_iff.mp h
  exact Reader.sameLetters_eq_some_iff.mpr
    ⟨expected, left, Text.dropExact?_eq_some_iff.mp hleft, rfl, rfl, rfl⟩

namespace Parser

/-- **What is matched up to case**, from where skipping ends on: it has as many characters as
the text and the same small letters. -/
theorem ignoreCaseWith_run_eq_ok_iff {env env' : Env} {n stop budget : Nat} {v : String}
    {k k' : Knots} {log : List Event} (e message : String) :
    (ignoreCaseWith e message).run env n budget k = .done (.ok env' stop v) log k'
      ↔ env' = env ∧ ∃ start before after, env.skipFrom n budget k = .done start log k'
        ∧ env.subject = before ++ v.toList ++ after ∧ Text.size before = start
        ∧ stop = start + Text.size v.toList ∧ v.toList.length = e.toList.length
        ∧ Unicode.lower v.toList = Unicode.lower e.toList := by
  constructor
  · intro h
    obtain ⟨start, rest, m, hskip, hrest, hfound, rfl, rfl, hv⟩ := token_run_eq_ok h
    obtain ⟨before, hsubject, hstart⟩ := Text.eq_append_of_from? hrest
    obtain ⟨text, after, rfl, rfl, hlength, hlower⟩ := Reader.sameLetters_eq_some_iff.mp hfound
    obtain rfl : text = _ := hv.symm
    refine ⟨rfl, start, before, after, hskip, ?_, hstart, ?_, hlength, hlower⟩
    · rw [hsubject, List.append_assoc]
    · rw [Match.size_here]
  · rintro ⟨rfl, start, before, after, hskip, hsubject, rfl, rfl, hlength, hlower⟩
    have hrest : env'.from? (Text.size before) = some (v.toList ++ after) := by
      rw [Env.from?, hsubject, List.append_assoc, Text.from?_size_append]
    have hfound : Reader.sameLetters e.toList (v.toList ++ after) = some (.here v.toList) :=
      Reader.sameLetters_eq_some_iff.mpr ⟨v.toList, after, rfl, rfl, hlength, hlower⟩
    have hrun := token_run_of_done hskip (Reader.sameLetters e.toList) message
    simp only [hrest, Option.bind_some, hfound, Match.size_here, Match.text_here,
      String.ofList_toList] at hrun
    exact hrun

/-- **Two texts are the same up to case** if the one, matched up to case, succeeds on the
other and consumes all of it. -/
def SameUpToCase (a b : String) : Prop :=
  ∃ env v, (ignoreCase a).Returns (Env.new b.toList) 0 (.ok env (Text.size b.toList) v)

/-- Texts are the same up to case if they have as many characters and the same small
letters. -/
theorem sameUpToCase_iff (a b : String) : SameUpToCase a b
    ↔ a.toList.length = b.toList.length ∧ Unicode.lower a.toList = Unicode.lower b.toList := by
  constructor
  · rintro ⟨env, v, budget, log, k, k', hdone⟩
    obtain ⟨-, start, before, after, hskip, hb, hstart, hstop, hlength, hlower⟩ :=
      (ignoreCaseWith_run_eq_ok_iff _ _).mp hdone
    obtain rfl : 0 = start := (Outcome.done.inj hskip).1
    replace hb : b.toList = before ++ v.toList ++ after := hb
    have hsize := congrArg Text.size hb
    rw [Text.size_append, Text.size_append] at hsize
    have hnil : before = [] ∧ after = [] :=
      ⟨Decidable.byContradiction fun hne => absurd (Text.size_pos hne) (by omega),
        Decidable.byContradiction fun hne => absurd (Text.size_pos hne) (by omega)⟩
    rw [hnil.1, hnil.2, List.nil_append, List.append_nil] at hb
    rw [hb]
    exact ⟨hlength.symm, hlower.symm⟩
  · rintro ⟨hlength, hlower⟩
    exact ⟨_, b, 0, [], .initial, .initial, (ignoreCaseWith_run_eq_ok_iff _ _).mpr
      ⟨rfl, 0, [], [], rfl, (List.append_nil _).symm, rfl, (Nat.zero_add _).symm, hlength.symm,
        hlower.symm⟩⟩

/-- **Matching up to case is an equivalence that extends exact matching.** Where a text is
matched exactly, it is matched up to case, with the same end and value. What is matched up to
case is exactly what stands in the subject from where skipping ends up to where the match ends,
has as many characters as the text, and the same small letters. To be matched as a whole is
reflexive, symmetric and transitive. -/
theorem ignoreCase_extends_string (e message message' : String) :
    (∀ {env env' n stop budget v log k k'},
      (stringWith e message).run env n budget k = .done (.ok env' stop v) log k' →
      (ignoreCaseWith e message').run env n budget k = .done (.ok env' stop v) log k')
    ∧ (∀ {env env' n stop budget v log k k'},
      (ignoreCaseWith e message).run env n budget k = .done (.ok env' stop v) log k'
        ↔ env' = env ∧ ∃ start before after, env.skipFrom n budget k = .done start log k'
          ∧ env.subject = before ++ v.toList ++ after ∧ Text.size before = start
          ∧ stop = start + Text.size v.toList ∧ v.toList.length = e.toList.length
          ∧ Unicode.lower v.toList = Unicode.lower e.toList)
    ∧ Equivalence SameUpToCase :=
  ⟨token_run_of_imp fun _ _ => Reader.sameLetters_of_exact, ignoreCaseWith_run_eq_ok_iff e message,
    { refl := fun a => (sameUpToCase_iff a a).mpr ⟨rfl, rfl⟩
      symm := fun {a b} h =>
        (sameUpToCase_iff b a).mpr (((sameUpToCase_iff a b).mp h).imp Eq.symm Eq.symm)
      trans := fun {a b c} h h' => by
        obtain ⟨hlength, hlower⟩ := (sameUpToCase_iff a b).mp h
        obtain ⟨hlength', hlower'⟩ := (sameUpToCase_iff b c).mp h'
        exact (sameUpToCase_iff a c).mpr ⟨hlength.trans hlength', hlower.trans hlower'⟩ }⟩

/-- Letters after a blank, matched exactly and up to case. -/
theorem ignoreCase_extends_string_letters :
    let env : Env := ⟨" aB".toList, some (token (Reader.run1 (· == ' ')) "No room").scan, none⟩
    (ignoreCaseWith "aB" "No letters").run env 0 0 .initial
      = .done (.ok env 3 "aB") [] .initial
    ∧ (∃ start before after, env.skipFrom 0 0 .initial = .done start [] .initial
      ∧ env.subject = before ++ "aB".toList ++ after ∧ Text.size before = start
      ∧ 3 = start + Text.size "aB".toList ∧ "aB".toList.length = "Ab".toList.length
      ∧ Unicode.lower "aB".toList = Unicode.lower "Ab".toList)
    ∧ SameUpToCase "Ab" "aB" := by
  intro env
  have hexact : (stringWith "aB" "No letters").run env 0 0 .initial
      = .done (.ok env 3 "aB") [] .initial := rfl
  have hcaseless : (ignoreCaseWith "Ab" "No letters").run env 0 0 .initial
      = .done (.ok env 3 "aB") [] .initial := rfl
  have hsame : SameUpToCase "aB" "Ab" := (sameUpToCase_iff "aB" "Ab").mpr (by decide)
  exact ⟨(ignoreCase_extends_string "aB" "No letters" "No letters").1 hexact,
    ((ignoreCase_extends_string "Ab" "No letters" "No letters").2.1.mp hcaseless).2,
    (ignoreCase_extends_string "aB" "No letters" "No letters").2.2.symm hsame⟩

end Parser

end Descent
