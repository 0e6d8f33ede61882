import Descent.Regex.Matching

/-!
# Reading a pattern in parentheses

What is read from a text alone is read from the same text with a closing parenthesis behind
it as well, and only the parenthesis is left then (`readBranches_refines`). So a text that is
a pattern by itself stays one pattern when it is put in parentheses.

**The relation.** `Cursor.Enclosed` says that the parenthesis stands behind what is left.
There is one exception: where blanks are passed over, a comment at the end takes the
parenthesis in, and then nothing is left on either side. `Read.Refines` relates two readers
that keep to it. What cannot be read alone is not compared, so most rules ask nothing about
errors.

**Steps.** A reader is given as many steps as there are characters, which is one more with
the parenthesis. A reader that fails without steps is compared at any larger number
(`steps_induction`). Where a reader just stops without steps, it has to be known that they
suffice; this is so for letters (`lettersWhile_refinesAt`) and for the hyphens of a class
(`readHyphens_refinesAt`).
-/

namespace Descent

namespace Regex

/-! ## Texts with a parenthesis behind them -/

theorem isBlank_paren : isBlank ')' = false := by decide

/-- Blanks and comments end before the parenthesis, unless a comment goes on to the end and
takes it in. -/
theorem dropBlanks_concat (inComment : Bool) (cs : List Char) :
    dropBlanks inComment (cs ++ [')']) = dropBlanks inComment cs ++ [')']
      ∨ dropBlanks inComment cs = [] ∧ dropBlanks inComment (cs ++ [')']) = [] := by
  induction cs generalizing inComment with
  | nil =>
    cases inComment with
    | true => exact .inr ⟨rfl, rfl⟩
    | false => exact .inl (by simp [dropBlanks, isBlank_paren])
  | cons c cs ih =>
    rw [List.cons_append, dropBlanks, dropBlanks]
    cases inComment with
    | true => exact ih _
    | false =>
      by_cases hblank : isBlank c = true
      · simpa [hblank] using ih false
      · by_cases hcomment : c = '#'
        · simp only [Bool.false_eq_true, if_false, if_neg hblank, if_pos hcomment]
          exact ih true
        · exact .inl (by simp [hblank, hcomment])

theorem length_dropBlanks_le (inComment : Bool) (cs : List Char) :
    (dropBlanks inComment cs).length ≤ cs.length := by
  induction cs generalizing inComment with
  | nil => exact Nat.le_refl _
  | cons c cs ih =>
    rw [dropBlanks]
    split
    · exact Nat.le_succ_of_le (ih _)
    · split
      · exact Nat.le_succ_of_le (ih _)
      · split
        · exact Nat.le_succ_of_le (ih _)
        · exact Nat.le_refl _

theorem dropWhile_isBlank_concat (cs : List Char) :
    (cs ++ [')']).dropWhile isBlank = cs.dropWhile isBlank ++ [')'] := by
  rw [List.dropWhile_append]
  split
  · next h => simp [List.isEmpty_iff.mp h, isBlank_paren]
  · rfl

/-- A named class from behind its opening on. -/
def namedClassIn (negated : Bool) (cs : List Char) : Option (SetItem × List Char) :=
  match cs.dropWhile (· != ':') with
  | ':' :: ']' :: rest =>
    (namedClasses.find? fun entry => entry.1.toList = cs.takeWhile (· != ':')).map fun entry =>
      (.named entry.2 negated, rest)
  | _ => none

theorem takeWhile_concat {p : Char → Bool} {cs : List Char} (c : Char)
    (h : cs.dropWhile p ≠ []) : (cs ++ [c]).takeWhile p = cs.takeWhile p := by
  rw [List.takeWhile_append, if_neg]
  intro hall
  have hsplit := congrArg List.length (List.takeWhile_append_dropWhile (p := p) (l := cs))
  rw [List.length_append] at hsplit
  exact h (List.eq_nil_of_length_eq_zero (by omega))

theorem namedClassIn_concat (negated : Bool) (cs : List Char) :
    namedClassIn negated (cs ++ [')'])
      = (namedClassIn negated cs).map fun r => (r.1, r.2 ++ [')']) := by
  unfold namedClassIn
  match hrest : cs.dropWhile (· != ':') with
  | [] => simp [List.dropWhile_append, hrest]
  | [c] => simp [List.dropWhile_append, hrest]
  | c :: d :: rest =>
    rw [takeWhile_concat _ (by simp [hrest]), List.dropWhile_append, hrest]
    by_cases hmark : c = ':' ∧ d = ']'
    · obtain ⟨rfl, rfl⟩ := hmark
      simp [Option.map_map, Function.comp_def]
    · have hother : ∀ tail, (match (motive := List Char → Option (SetItem × List Char))
          c :: d :: tail with
          | ':' :: ']' :: rest =>
            (namedClasses.find? fun entry => entry.1.toList = cs.takeWhile (· != ':')).map
              fun entry => (.named entry.2 negated, rest)
          | _ => none) = none := by
        intro tail
        split
        · next heq => simp_all
        · rfl
      exact (hother _).trans (by rw [hother]; rfl)

theorem namedClass?_of_ne_caret {cs : List Char} (h : cs.head? ≠ some '^') :
    namedClass? ('[' :: ':' :: cs) = namedClassIn false cs := by
  unfold namedClass?
  split
  · next rest hopen =>
    obtain rfl : cs = rest := by simpa using hopen
    split
    next negated name hcaret =>
      split at hcaret
      · exact absurd rfl h
      · cases hcaret
        rfl
  · next hopen => exact absurd rfl (hopen cs)

theorem namedClass?_eq_none {cs : List Char} (h : ∀ rest, cs ≠ '[' :: ':' :: rest) :
    namedClass? cs = none := by
  unfold namedClass?
  split
  · next rest => exact absurd rfl (h rest)
  · rfl

/-- A named class is found where it is found without the parenthesis. -/
theorem namedClass?_concat (cs : List Char) :
    namedClass? (cs ++ [')']) = (namedClass? cs).map fun r => (r.1, r.2 ++ [')']) := by
  by_cases hopen : ∃ rest, cs = '[' :: ':' :: rest
  · obtain ⟨rest, rfl⟩ := hopen
    by_cases hcaret : rest.head? = some '^'
    · obtain ⟨rest, rfl⟩ := List.head?_eq_some_iff.mp hcaret
      exact namedClassIn_concat true rest
    · have hcaret' : (rest ++ [')']).head? ≠ some '^' := by
        cases rest with
        | nil => decide
        | cons c rest => exact hcaret
      rw [List.cons_append, List.cons_append, namedClass?_of_ne_caret hcaret',
        namedClass?_of_ne_caret hcaret]
      exact namedClassIn_concat false rest
  · have hopen := not_exists.mp hopen
    rw [namedClass?_eq_none hopen, namedClass?_eq_none]
    · rfl
    · intro rest heq
      match cs with
      | [] => simp at heq
      | [c] => simp at heq
      | c :: d :: cs => exact hopen cs (by simp_all)

/-- A text without a parenthesis stands before the parenthesis if it stands anywhere. -/
theorem take_concat_iff {text cs : List Char} (h : ')' ∉ text) :
    (cs ++ [')']).take text.length = text ↔ cs.take text.length = text := by
  rw [eq_comm, ← List.prefix_iff_eq_take, List.prefix_concat_iff, eq_comm (b := text),
    ← List.prefix_iff_eq_take]
  exact or_iff_right fun heq => h (by simp [heq])

/-- Looking past blanks, the parenthesis is seen only where nothing but blanks is left. -/
theorem scan_concat (o o' : Option Char) (inComment : Bool) (cs : List Char) :
    Read.peekPast.scan o' inComment (cs ++ [')']) = Read.peekPast.scan o inComment cs
      ∨ (∀ c ∈ cs, isBlank c = true ∨ c = '#') ∧ Read.peekPast.scan o inComment cs = o
        ∧ Read.peekPast.scan o' inComment (cs ++ [')']) = some ')' := by
  induction cs generalizing inComment with
  | nil => exact .inr ⟨by simp, rfl, by simp [Read.peekPast.scan, isBlank_paren]⟩
  | cons c cs ih =>
    rw [List.cons_append, Read.peekPast.scan, Read.peekPast.scan]
    by_cases hblank : isBlank c = true
    · simpa [hblank] using ih inComment
    · by_cases hcomment : (!inComment && c = '#') = true
      · rw [if_neg hblank, if_pos hcomment, if_neg hblank, if_pos hcomment]
        refine (ih true).imp_right fun ⟨hpassed, hstop⟩ => ⟨?_, hstop⟩
        exact List.forall_mem_cons.mpr ⟨.inr (by simp_all), hpassed⟩
      · exact .inl (by rw [if_neg hblank, if_neg hcomment, if_neg hblank, if_neg hcomment])

/-- What is seen past blanks is the same, as far as it is no blank, comment or parenthesis. -/
theorem past_concat (extended : Bool) (after : List Char) {c : Char} (hblank : isBlank c = false)
    (hcomment : c ≠ '#') (hparen : c ≠ ')') :
    (if extended then Read.peekPast.scan (after ++ [')']).head? false (after ++ [')'])
        else (after ++ [')']).head?) = some c
      ↔ (if extended then Read.peekPast.scan after.head? false after else after.head?)
        = some c := by
  have hhead : (after ++ [')']).head? = some c ↔ after.head? = some c := by
    cases after with
    | nil => simp [hparen.symm]
    | cons d after => rfl
  cases extended with
  | false => exact hhead
  | true =>
    obtain hsame | ⟨hpassed, hstop, hstop'⟩ :=
      scan_concat after.head? (after ++ [')']).head? false after
    · rw [if_pos rfl, if_pos rfl, hsame]
    · rw [if_pos rfl, if_pos rfl, hstop, hstop']
      refine iff_of_false (by simp [hparen.symm]) fun hfirst => ?_
      cases hpassed c (List.mem_of_head? hfirst) with
      | inl h => simp [hblank] at h
      | inr h => exact hcomment h

/-! ## Cursors -/

/-- **A closing parenthesis stands behind what is left**, or a comment has taken it in when
nothing was left. -/
structure Cursor.Enclosed (s s' : Cursor) : Prop where
  rest : s'.rest = s.rest ++ [')'] ∨ s.rest = [] ∧ s'.rest = []
  extended : s'.extended = s.extended
  names : s'.names = s.names

namespace Cursor.Enclosed

variable {s s' : Cursor}

theorem length_le (h : s.Enclosed s') : s.rest.length ≤ s'.rest.length := by
  obtain hrest | ⟨hrest, hrest'⟩ := h.rest
  · simp [hrest]
  · simp [hrest]

theorem steps_le (h : s.Enclosed s') : s.rest.length + 1 ≤ s'.rest.length + 1 :=
  Nat.succ_le_succ h.length_le

/-- If something is left, the parenthesis stands behind it. -/
theorem rest_cons (h : s.Enclosed s') {c : Char} {cs : List Char} (hs : s.rest = c :: cs) :
    s'.rest = c :: (cs ++ [')']) := by
  obtain hrest | ⟨hrest, -⟩ := h.rest
  · rw [hrest, hs, List.cons_append]
  · exact absurd (hs.symm.trans hrest) (by simp)

/-- If nothing is left, nothing is or the parenthesis alone. -/
theorem rest_nil (h : s.Enclosed s') (hs : s.rest = []) : s'.rest = [] ∨ s'.rest = [')'] := by
  obtain hrest | ⟨-, hrest⟩ := h.rest
  · exact .inr (by rw [hrest, hs, List.nil_append])
  · exact .inl hrest

/-- After a step that passes over the same on both sides. -/
theorem map_rest (h : s.Enclosed s') {f : List Char → List Char}
    (hf : f (s.rest ++ [')']) = f s.rest ++ [')']
      ∨ f s.rest = [] ∧ f (s.rest ++ [')']) = []) (hnil : f [] = []) :
    ({ s with rest := f s.rest } : Cursor).Enclosed { s' with rest := f s'.rest } := by
  refine ⟨?_, h.extended, h.names⟩
  obtain hrest | ⟨hrest, hrest'⟩ := h.rest
  · rw [hrest]
    exact hf
  · exact .inr ⟨by rw [hrest]; exact hnil, by rw [hrest']; exact hnil⟩

/-- At another place of the text. -/
theorem at_rest (h : s.Enclosed s') (rest : List Char) :
    ({ s with rest } : Cursor).Enclosed { s' with rest := rest ++ [')'] } :=
  ⟨.inl rfl, h.extended, h.names⟩

/-- A named class that stands here stands before the parenthesis as well. -/
theorem namedClass?_eq (h : s.Enclosed s') :
    namedClass? s'.rest = (namedClass? s.rest).map fun r => (r.1, r.2 ++ [')']) := by
  obtain hrest | ⟨hrest, hrest'⟩ := h.rest
  · rw [hrest]
    exact namedClass?_concat s.rest
  · rw [hrest, hrest']
    rfl

end Cursor.Enclosed

/-! ## Readers -/

theorem except_bind_eq_ok_iff {ε α β : Type} {x : Except ε α} {f : α → Except ε β} {b : β} :
    (x >>= f) = .ok b ↔ ∃ a, x = .ok a ∧ f a = .ok b := by
  cases x with
  | error e => exact ⟨fun h => (nomatch h), fun ⟨_, h, _⟩ => (nomatch h)⟩
  | ok a =>
    constructor
    · exact fun h => ⟨a, rfl, h⟩
    · rintro ⟨_, ⟨⟩, h⟩
      exact h

namespace Read

variable {α β : Type}

/-- **Whatever the first reader reads from one cursor, the second reads from the other**, and
the cursors still belong together. -/
def RefinesAt (s s' : Cursor) (x y : Read α) : Prop :=
  ∀ ⦃a t⦄, x s = .ok (a, t) → ∃ t', y s' = .ok (a, t') ∧ t.Enclosed t'

/-- **Whatever the first reader reads, the second reads before a parenthesis.** -/
def Refines (x y : Read α) : Prop := ∀ ⦃s s'⦄, s.Enclosed s' → RefinesAt s s' x y

theorem bind_eq_ok_iff {x : Read α} {f : α → Read β} {s : Cursor} {r : β × Cursor} :
    (x >>= f) s = .ok r ↔ ∃ a t, x s = .ok (a, t) ∧ f a t = .ok r :=
  except_bind_eq_ok_iff.trans Prod.exists

theorem RefinesAt.bind {s s' : Cursor} {x y : Read α} {f g : α → Read β}
    (hx : RefinesAt s s' x y)
    (hf : ∀ a t t', x s = .ok (a, t) → t.Enclosed t' → RefinesAt t t' (f a) (g a)) :
    RefinesAt s s' (x >>= f) (y >>= g) := by
  intro b u h
  obtain ⟨a, t, hdone, hrest⟩ := bind_eq_ok_iff.mp h
  obtain ⟨t', hdone', ht⟩ := hx hdone
  obtain ⟨u', hrest', hu⟩ := hf a t t' hdone ht hrest
  exact ⟨u', bind_eq_ok_iff.mpr ⟨a, t', hdone', hrest'⟩, hu⟩

theorem RefinesAt.ite {s s' : Cursor} {x x' y y' : Read α} {p : Prop} [Decidable p]
    (hx : RefinesAt s s' x x') (hy : RefinesAt s s' y y') :
    RefinesAt s s' (if p then x else y) (if p then x' else y') := by
  split
  · exact hx
  · exact hy

theorem RefinesAt.peek_bind {s s' : Cursor} (hs : s.Enclosed s') {f g : Option Char → Read β}
    (hsome : ∀ c cs, s.rest = c :: cs → RefinesAt s s' (f (some c)) (g (some c)))
    (hnone : s.rest = [] → RefinesAt s s' (f none) (g none))
    (hend : s.rest = [] → RefinesAt s s' (f none) (g (some ')'))) :
    RefinesAt s s' (peek >>= f) (peek >>= g) := by
  show RefinesAt s s' (f s.rest.head?) (g s'.rest.head?)
  cases hrest : s.rest with
  | nil =>
    obtain hrest' | hrest' := hs.rest_nil hrest
    · rw [hrest']
      exact hnone hrest
    · rw [hrest']
      exact hend hrest
  | cons c cs =>
    rw [hs.rest_cons hrest]
    exact hsome c cs hrest

theorem RefinesAt.char_bind {s s' : Cursor} (hs : s.Enclosed s') (e : SyntaxError)
    {f g : Char → Read β}
    (h : ∀ c cs, s.rest = c :: cs → RefinesAt s s' (f c) (g c)) :
    RefinesAt s s' (Read.char e >>= f) (Read.char e >>= g) := by
  rw [Read.char, bind_assoc, bind_assoc]
  refine .peek_bind hs (fun c cs hrest => ?_) (fun _ => ?_) fun _ => ?_
  · rw [pure_bind, pure_bind]
    exact h c cs hrest
  · exact fun _ _ h => nomatch h
  · exact fun _ _ h => nomatch h

/-- **Nothing is read**, wherever the reader begins. -/
def Fails (x : Read α) : Prop := ∀ s r, x s ≠ .ok r

theorem Fails.throw (e : SyntaxError) : Fails (MonadExcept.throw e : Read α) :=
  fun _ _ h => nomatch h

namespace Refines

variable {x x' y y' : Read α} {f g : α → Read β}

theorem bind (hx : Refines x y) (hf : ∀ a, Refines (f a) (g a)) : Refines (x >>= f) (y >>= g) :=
  fun _ _ hs => (hx hs).bind fun a _ _ _ ht => hf a ht

theorem pure (a : α) : Refines (Pure.pure a) (Pure.pure a) := by
  intro s s' hs b t h
  obtain ⟨rfl, rfl⟩ : a = b ∧ s = t := by simpa using Except.ok.inj h
  exact ⟨s', rfl, hs⟩

/-- What cannot be read is not compared. -/
theorem of_fails (h : Fails x) : Refines x y := fun s _ _ a t hdone => absurd hdone (h s (a, t))

theorem throw (e : SyntaxError) : Refines (MonadExcept.throw e) y := .of_fails (.throw e)

/-- The cursors themselves. -/
theorem get_bind {f g : Cursor → Read β}
    (h : ∀ s s', s.Enclosed s' → RefinesAt s s' (f s) (g s')) :
    Refines (get >>= f) (get >>= g) := fun s s' hs => h s s' hs

theorem modify {f g : Cursor → Cursor} (h : ∀ s s', s.Enclosed s' → (f s).Enclosed (g s')) :
    Refines (modify f) (modify g) := by
  intro s s' hs a t hdone
  obtain ⟨-, rfl⟩ : () = a ∧ f s = t := by simpa using Except.ok.inj hdone
  exact ⟨g s', rfl, h s s' hs⟩

theorem set {s s' : Cursor} (h : s.Enclosed s') : Refines (set s) (set s') := by
  intro t t' _ a u hdone
  obtain ⟨-, rfl⟩ : () = a ∧ s = u := by simpa using Except.ok.inj hdone
  exact ⟨s', rfl, h⟩

theorem ite {p : Prop} [Decidable p] (hx : Refines x x') (hy : Refines y y') :
    Refines (if p then x else y) (if p then x' else y') := fun _ _ hs => .ite (hx hs) (hy hs)

/-- The next character is the same, unless nothing is left: then the parenthesis may be next. -/
theorem peek_bind {f g : Option Char → Read β} (h : ∀ o, Refines (f o) (g o))
    (hend : Refines (f none) (g (some ')'))) : Refines (peek >>= f) (peek >>= g) :=
  fun _ _ hs => .peek_bind hs (fun c _ _ => h (some c) hs) (fun _ => h none hs) fun _ => hend hs

theorem char (e : SyntaxError) : Refines (Read.char e) (Read.char e) := by
  refine .peek_bind (fun o => ?_) (.throw e)
  cases o with
  | none => exact .throw e
  | some c => exact .pure c

/-- The character after the next one is the same, up to the parenthesis. -/
theorem peekSecond_bind {f g : Option Char → Read β}
    (h : ∀ o o', (∀ c, c ≠ ')' → (o' = some c ↔ o = some c)) → Refines (f o) (g o')) :
    Refines (peekSecond >>= f) (peekSecond >>= g) := by
  intro s s' hs
  refine h s.rest.tail.head? s'.rest.tail.head? (fun c hc => ?_) hs
  match hrest : s.rest with
  | [] => cases hs.rest_nil hrest <;> simp [*]
  | [d] => simp [hs.rest_cons hrest, hc.symm]
  | d :: e :: cs => simp [hs.rest_cons hrest]

/-- What is not read at the end is read the same where something is left. -/
theorem atEnd_bind {f g : Bool → Read β} (hend : Fails (f true))
    (h : Refines (f false) (g false)) : Refines (atEnd >>= f) (atEnd >>= g) := by
  intro s s' hs
  show RefinesAt s s' (f s.rest.isEmpty) (g s'.rest.isEmpty)
  cases hrest : s.rest with
  | nil => exact of_fails hend hs
  | cons c cs =>
    rw [hs.rest_cons hrest]
    exact h hs

theorem bump : Refines Read.bump Read.bump := by
  refine .modify fun s s' hs => hs.map_rest ?_ rfl
  cases s.rest with
  | nil => exact .inr ⟨rfl, rfl⟩
  | cons c cs => exact .inl rfl

theorem blanks : Refines Read.blanks Read.blanks := by
  refine .modify fun s s' hs => ?_
  rw [← hs.extended]
  split
  · have hdropped := hs.map_rest (dropBlanks_concat false s.rest) rfl
    rwa [← hs.extended] at hdropped
  · exact hs

theorem bumpBlanks : Refines Read.bumpBlanks Read.bumpBlanks := .bind .bump fun _ => .blanks

/-- A text that holds no parenthesis stands here or does not. -/
theorem accept {text : List Char} (h : ')' ∉ text) :
    Refines (Read.accept text) (Read.accept text) := by
  refine .get_bind fun s s' hs => ?_
  have hsame : s'.rest.take text.length = text ↔ s.rest.take text.length = text := by
    obtain hrest | ⟨hrest, hrest'⟩ := hs.rest
    · rw [hrest]
      exact take_concat_iff h
    · rw [hrest, hrest']
  by_cases hhere : s.rest.take text.length = text
  · rw [if_pos hhere, if_pos (hsame.mpr hhere)]
    have hlength : text.length ≤ s.rest.length := by
      rw [← hhere, List.length_take]
      exact Nat.min_le_right _ _
    refine Refines.bind (.set (hs.map_rest ?_ List.drop_nil)) (fun _ => .pure true) hs
    exact .inl (List.drop_append_of_le_length hlength)
  · rw [if_neg hhere, if_neg (mt hsame.mp hhere)]
    exact Refines.pure false hs

/-- Past blanks, the same closing brackets and hyphens are seen. -/
theorem peekPast_bind {f g : Option Char → Read β}
    (h : ∀ o o', (o' = some ']' ↔ o = some ']') → (o' = some '-' ↔ o = some '-') →
      Refines (f o) (g o')) : Refines (peekPast >>= f) (peekPast >>= g) := by
  refine .get_bind fun s s' hs => ?_
  have hafter : s'.rest.tail = s.rest.tail ++ [')'] ∨ s'.rest.tail = s.rest.tail := by
    cases hrest : s.rest with
    | nil => cases hs.rest_nil hrest <;> simp [*]
    | cons c cs => exact .inl (by rw [hs.rest_cons hrest]; rfl)
  have hsame : ∀ c, isBlank c = false → c ≠ '#' → c ≠ ')' →
      ((if s'.extended then Read.peekPast.scan s'.rest.tail.head? false s'.rest.tail
          else s'.rest.tail.head?) = some c
        ↔ (if s.extended then Read.peekPast.scan s.rest.tail.head? false s.rest.tail
          else s.rest.tail.head?) = some c) := by
    intro c hblank hcomment hparen
    rw [hs.extended]
    obtain hafter | hafter := hafter
    · rw [hafter]
      exact past_concat s.extended s.rest.tail hblank hcomment hparen
    · rw [hafter]
  exact h _ _ (hsame ']' (by decide) (by decide) (by decide))
    (hsame '-' (by decide) (by decide) (by decide)) hs

/-- A step for every member of a list. -/
theorem forIn {γ : Type} (l : List γ) {f g : γ → PUnit → Read (ForInStep PUnit)}
    (h : ∀ a ∈ l, ∀ u, Refines (f a u) (g a u)) :
    Refines (ForIn.forIn l PUnit.unit f) (ForIn.forIn l PUnit.unit g) := by
  induction l with
  | nil => exact .pure _
  | cons a l ih =>
    rw [List.forIn_cons, List.forIn_cons]
    refine .bind (h a List.mem_cons_self _) fun step => ?_
    cases step with
    | done u => exact .pure u
    | yield u => exact ih fun b hb => h b (List.mem_cons_of_mem a hb)

end Refines

/-! ## Steps that suffice -/

/-- Behind a character there is less left. -/
theorem bumpBlanks_length_le {s t : Cursor} {u : Unit} (h : bumpBlanks s = .ok (u, t)) :
    t.rest.length ≤ s.rest.tail.length := by
  obtain rfl : (if s.extended then { s with rest := dropBlanks false s.rest.tail }
      else { s with rest := s.rest.tail } : Cursor) = t := congrArg Prod.snd (Except.ok.inj h)
  split
  · exact length_dropBlanks_le false _
  · exact Nat.le_refl _

/-- Where a character is next, less is left behind it. -/
theorem RefinesAt.bumpBlanks_bind {s s' : Cursor} (hs : s.Enclosed s') {c : Char}
    {cs : List Char} (hrest : s.rest = c :: cs) {f g : Unit → Read α}
    (h : ∀ t t', t.Enclosed t' → t.rest.length ≤ cs.length → RefinesAt t t' (f ()) (g ())) :
    RefinesAt s s' (bumpBlanks >>= f) (bumpBlanks >>= g) := by
  refine RefinesAt.bind (Refines.bumpBlanks hs) fun _ t t' hdone ht => h t t' ht ?_
  have hlength := bumpBlanks_length_le hdone
  rwa [hrest] at hlength

end Read

open Read

/-- Induction on two numbers of steps at once, of which the second is no less. -/
theorem steps_induction {motive : (n m : Nat) → n ≤ m → Prop}
    (zero : ∀ m, motive 0 m (Nat.zero_le m))
    (succ : ∀ n m h, motive n m h → motive (n + 1) (m + 1) (Nat.succ_le_succ h)) :
    ∀ {n m : Nat} (h : n ≤ m), motive n m h
  | 0, m, _ => zero m
  | n + 1, m + 1, h => succ n m _ (steps_induction zero succ (Nat.le_of_succ_le_succ h))

/-! ## Letters by number and properties -/

theorem codePoint_refines (n : Nat) : Refines (codePoint n) (codePoint n) := by
  unfold codePoint
  by_cases h : n.isValidChar
  · rw [dif_pos h]
    exact .pure _
  · rw [dif_neg h]
    exact .throw _

theorem readHexDigits_refines (n : Nat) : Refines (readHexDigits n) (readHexDigits n) := by
  induction n with
  | zero => exact .pure _
  | succ n ih =>
    refine .bind (.char _) fun c => .ite ?_ (.throw _)
    exact .bind .bumpBlanks fun _ => .bind ih fun _ => .pure _

theorem readHexBraced_refines {n m : Nat} (h : n ≤ m) :
    Refines (readHexBraced n) (readHexBraced m) := by
  induction h using steps_induction with
  | zero => exact .throw _
  | succ n m h ih =>
    refine .bind (.char _) fun c => .ite ?_ (.ite ?_ (.throw _))
    · exact .bind .bumpBlanks fun _ => .pure _
    · exact .bind .bumpBlanks fun _ => .bind ih fun _ => .pure _

theorem readHex_refines : Refines readHex readHex := by
  refine .bind (.char _) fun kind => .bind .bumpBlanks fun _ => .bind (.char _) fun c => .ite ?_ ?_
  · refine .bind .bumpBlanks fun _ => .get_bind fun s s' hs => ?_
    refine Refines.bind (readHexBraced_refines hs.steps_le) (fun digits => ?_) hs
    exact .ite (.throw _) (.bind (codePoint_refines _) fun _ => .pure _)
  · exact .bind (readHexDigits_refines _) fun digits =>
      .bind (codePoint_refines _) fun _ => .pure _

theorem readPropertyName_refines {n m : Nat} (h : n ≤ m) :
    Refines (readPropertyName n) (readPropertyName m) := by
  induction h using steps_induction with
  | zero => exact .throw _
  | succ n m h ih =>
    refine .bind (.char _) fun c => .ite ?_ ?_
    · exact .bind .bump fun _ => .pure _
    · exact .bind .bumpBlanks fun _ => .bind ih fun _ => .pure _

theorem readProperty_refines : Refines readProperty readProperty := by
  refine .bind (.char _) fun kind => .bind .bumpBlanks fun _ => .bind (.char _) fun c =>
    .ite ?_ (.ite (.throw _) ?_)
  · refine .bind .bumpBlanks fun _ => .get_bind fun s s' hs => ?_
    exact Refines.bind (readPropertyName_refines hs.steps_le) (fun _ => .pure _) hs
  · exact .bind .bumpBlanks fun _ => .pure _

/-! ## Escapes -/

/-- Letters as long as a test holds, in any of which blanks may stand. -/
def lettersWhile (test : Char → Bool) : (steps : Nat) → Read (List Char)
  | 0 => return []
  | steps + 1 => do
    match ← peek with
    | some c =>
      if test c then
        bumpBlanks
        return c :: (← lettersWhile test steps)
      else return []
    | none => return []

theorem readBoundaryName_eq (n : Nat) :
    readBoundaryName n = lettersWhile (fun c => c.isAlpha || c = '-') n := by
  induction n with
  | zero => rfl
  | succ n ih =>
    rw [readBoundaryName, ih]
    exact rfl

theorem readCountDigits_eq (n : Nat) : readCountDigits n = lettersWhile Char.isDigit n := by
  induction n with
  | zero => rfl
  | succ n ih =>
    rw [readCountDigits, ih]
    exact rfl

/-- The parenthesis ends the letters as the end of the text does, if the steps suffice. -/
theorem lettersWhile_refinesAt {test : Char → Bool} (hparen : test ')' = false) {n m : Nat}
    (hnm : n ≤ m) {s s' : Cursor} (hs : s.Enclosed s') (hn : s.rest.length < n) :
    RefinesAt s s' (lettersWhile test n) (lettersWhile test m) := by
  induction hnm using steps_induction generalizing s s' with
  | zero => exact absurd hn (Nat.not_lt_zero _)
  | succ n m h ih =>
    refine .peek_bind hs (fun c cs hrest => .ite ?_ (Refines.pure _ hs))
      (fun _ => Refines.pure _ hs) fun _ => ?_
    · refine .bumpBlanks_bind hs hrest fun t t' ht hle => ?_
      rw [hrest, List.length_cons] at hn
      exact (ih ht (by omega)).bind fun _ _ _ _ hu => Refines.pure _ hu
    · simp only [hparen]
      exact Refines.pure _ hs

/-- The steps are counted before the brace is passed over, so they suffice behind it. -/
theorem readBoundary_refines : Refines readBoundary readBoundary := by
  refine .get_bind fun s s' hs => ?_
  refine RefinesAt.bind (Refines.bumpBlanks hs) fun _ t t' hdone ht => ?_
  refine RefinesAt.char_bind ht _ fun c cs hrest => .ite ?_ ?_
  · have hlength := bumpBlanks_length_le hdone
    rw [List.length_tail] at hlength
    rw [readBoundaryName_eq, readBoundaryName_eq]
    refine (lettersWhile_refinesAt (by decide) hs.steps_le ht (by omega)).bind
      fun name u u' _ hu => Refines.peek_bind (fun o => ?_) ?_ hu
    · refine .ite (.throw _) (.bind .bump fun _ => ?_)
      exact .ite (.pure _) (.ite (.pure _) (.ite (.pure _) (.ite (.pure _) (.throw _))))
    · exact .of_fails (by rw [if_pos (by decide)]; exact .throw _)
  · exact Refines.bind (.set hs) (fun _ => .pure _) ht

theorem readEscape_refines : Refines readEscape readEscape := by
  refine .bind .bump fun _ => .bind (.char _) fun c => ?_
  split
  iterate 3 exact .bind readHex_refines fun _ => .pure _
  iterate 2 exact .bind readProperty_refines fun _ => .pure _
  iterate 6 exact .bind .bump fun _ => .pure _
  -- What is left are letters that stand for themselves, controls and assertions.
  refine .bind .bump fun _ => .ite (.pure _) ?_
  split
  · exact .pure _
  · split
    iterate 2 exact .pure _
    · exact .peek_bind
        (fun _ => .ite (.bind readBoundary_refines fun _ => .pure _) (.pure _)) (.pure _)
    iterate 3 exact .pure _
    · exact .throw _

/-! ## Classes in brackets -/

theorem readSetPrimitive_refines : Refines readSetPrimitive readSetPrimitive :=
  .bind (.char _) fun _ => .ite readEscape_refines (.bind .bump fun _ => .pure _)

theorem setItemOf_refines (syn : Syntax) : Refines (setItemOf syn) (setItemOf syn) := by
  unfold setItemOf
  split
  · exact .pure _
  · exact .pure _
  · exact .pure _
  · exact .throw _

theorem rangeEndOf_refines (syn : Syntax) : Refines (rangeEndOf syn) (rangeEndOf syn) := by
  unfold rangeEndOf
  split
  · exact .pure _
  · exact .throw _

/-- Whether a hyphen makes a range is decided by the same characters behind it. -/
theorem readSetRange_refines : Refines readSetRange readSetRange := by
  refine .bind readSetPrimitive_refines fun first => .bind .blanks fun _ => .bind (.char _) fun c =>
    .peekPast_bind fun o o' hclose hhyphen => ?_
  simp only [hclose, hhyphen]
  refine .ite (setItemOf_refines _) ?_
  refine .bind .bumpBlanks fun _ => .bind readSetPrimitive_refines fun last =>
    .bind (rangeEndOf_refines _) fun lo => .bind (rangeEndOf_refines _) fun hi => ?_
  exact .ite (.throw _) (.pure _)

theorem readHyphens_refinesAt {n m : Nat} (hnm : n ≤ m) {s s' : Cursor} (hs : s.Enclosed s')
    (hn : s.rest.length < n) : RefinesAt s s' (readHyphens n) (readHyphens m) := by
  induction hnm using steps_induction generalizing s s' with
  | zero => exact absurd hn (Nat.not_lt_zero _)
  | succ n m h ih =>
    refine .char_bind hs _ fun c cs hrest => .ite ?_ (Refines.pure _ hs)
    refine .bumpBlanks_bind hs hrest fun t t' ht hle => ?_
    rw [hrest, List.length_cons] at hn
    exact (ih ht (by omega)).bind fun _ _ _ _ hu => Refines.pure _ hu

theorem readClassOpening_refines : Refines readClassOpening readClassOpening := by
  refine .bind .bumpBlanks fun _ => .bind (.char _) fun c => .ite (.bind .bumpBlanks fun _ => ?_) ?_
  all_goals
    refine .get_bind fun s s' hs => ?_
    refine (readHyphens_refinesAt hs.steps_le hs (Nat.lt_succ_self _)).bind
      fun hyphens t t' _ ht => ?_
    refine Refines.bind (.char _) (fun d => .ite ?_ (.pure _)) ht
    exact .bind .bumpBlanks fun _ => .pure _

theorem readClass_refines {n m : Nat} (h : n ≤ m) (waiting : Option (SetOp × SetExpr))
    (items : List SetItem) : Refines (readClass n waiting items) (readClass m waiting items) := by
  induction h using steps_induction generalizing waiting items with
  | zero => exact .throw _
  | succ n m h ih =>
    refine .bind .blanks fun _ => .bind (.char _) fun c =>
      .peekSecond_bind fun second second' hsecond => ?_
    simp only [hsecond '&' (by decide), hsecond '-' (by decide), hsecond '~' (by decide)]
    refine .ite ?_ (.ite ?_ (.ite ?_ (.ite ?_ (.ite ?_ ?_))))
    · refine .get_bind fun s s' hs => ?_
      rw [hs.namedClass?_eq]
      cases namedClass? s.rest with
      | none =>
        refine Refines.bind readClassOpening_refines (fun opening => ?_) hs
        exact .bind (ih _ _) fun inner => ih _ _
      | some found =>
        have hpass : RefinesAt s s' (modify fun s => { s with rest := found.2 })
            (modify fun s => { s with rest := found.2 ++ [')'] }) :=
          fun _ _ hdone => by
            cases hdone
            exact ⟨_, rfl, hs.at_rest found.2⟩
        exact hpass.bind fun _ _ _ _ ht => ih _ _ ht
    · exact .bind .bump fun _ => .pure _
    · exact .bind .bump fun _ => .bind .bump fun _ => ih _ _
    · exact .bind .bump fun _ => .bind .bump fun _ => ih _ _
    · exact .bind .bump fun _ => .bind .bump fun _ => ih _ _
    · exact .bind readSetRange_refines fun _ => ih _ _

theorem readBracketed_refines : Refines readBracketed readBracketed := by
  refine .bind readClassOpening_refines fun opening => .get_bind fun s s' hs => ?_
  exact Refines.bind (readClass_refines hs.steps_le _ _) (fun _ => .pure _) hs

/-! ## Groups and repetitions -/

theorem readGroupName_refines {n m : Nat} (h : n ≤ m) (first : Bool) :
    Refines (readGroupName first n) (readGroupName first m) := by
  induction h using steps_induction generalizing first with
  | zero => exact .throw _
  | succ n m h ih =>
    refine .bind (.char _) fun c => .ite ?_ (.ite ?_ (.throw _))
    · exact .bind .bump fun _ => .pure _
    · exact .bind .bump fun _ => .bind (ih false) fun _ => .pure _

theorem readFlags_refines {n m : Nat} (h : n ≤ m) (on : Bool) (changes : List FlagChange) :
    Refines (readFlags n on changes) (readFlags m on changes) := by
  induction h using steps_induction generalizing on changes with
  | zero => exact .throw _
  | succ n m h ih =>
    refine .bind (.char _) fun c => .ite (.pure _) (.ite ?_ ?_)
    · refine .ite (.throw _) (.bind .bump fun _ => .bind (.char _) fun next => ?_)
      exact .ite (.throw _) (ih false changes)
    · split
      · exact .throw _
      · exact .ite (.throw _) (.bind .bump fun _ => ih on _)

theorem readOpening_refines : Refines readOpening readOpening := by
  refine .bind .bumpBlanks fun _ => .bind (.forIn _ fun mark hmark _ => ?_) fun _ => ?_
  · refine .bind (.accept ?_) fun found => .ite (.throw _) (.pure _)
    revert mark
    decide
  have hnamed : Refines (accept ['?', 'P', '<'] <||> accept ['?', '<'])
      (accept ['?', 'P', '<'] <||> accept ['?', '<']) :=
    .bind (.accept (by decide)) fun found => by
      cases found with
      | true => exact .pure true
      | false => exact .accept (by decide)
  refine .bind hnamed fun named => .ite (.get_bind fun s s' hs => ?_) ?_
  · refine Refines.bind (readGroupName_refines hs.steps_le true) (fun name => ?_) hs
    refine .ite (.throw _) (.get_bind fun t t' ht => ?_)
    rw [ht.names]
    refine Refines.ite (.throw _) (.bind (.modify fun u u' hu => ?_) fun _ => .pure _) ht
    exact ⟨hu.rest, hu.extended, congrArg (name :: ·) hu.names⟩
  · refine .bind (.accept (by decide)) fun flagged => .ite (.atEnd_bind (.throw _) ?_) (.pure _)
    refine .get_bind fun s s' hs => ?_
    refine Refines.bind (readFlags_refines hs.steps_le _ _) (fun changes => ?_) hs
    exact .bind (.char _) fun c => .bind .bump fun _ => .ite (.ite (.throw _) (.pure _)) (.pure _)

theorem popRepeated_refines (parts : List Syntax) :
    Refines (popRepeated parts) (popRepeated parts) := by
  unfold popRepeated
  split
  iterate 3 exact .throw _
  · exact .pure _

theorem readLazy_refines : Refines readLazy readLazy :=
  .peek_bind (fun _ => .ite (.bind .bump fun _ => .pure _) (.pure _)) (.pure _)

theorem need_refines (count : Option Nat) : Refines (need count) (need count) := by
  unfold need
  split
  · exact .pure _
  · exact .throw _

theorem readCount_refines : Refines readCount readCount := by
  refine .bind (.modify fun s s' hs => hs.map_rest ?_ rfl) fun _ => .get_bind fun s s' hs => ?_
  · exact .inl (dropWhile_isBlank_concat s.rest)
  rw [readCountDigits_eq, readCountDigits_eq]
  refine (lettersWhile_refinesAt (by decide) hs.steps_le hs (Nat.lt_succ_self _)).bind
      fun digits t t' _ ht => Refines.bind (.modify fun u u' hu => ?_) (fun _ => ?_) ht
  · have hpassed := hu.map_rest (.inl (dropWhile_isBlank_concat u.rest)) rfl
    refine ⟨?_, hu.extended, hu.names⟩
    rw [hu.extended]
    cases u.extended with
    | true => exact (hpassed.map_rest (dropBlanks_concat false _) rfl).rest
    | false => exact hpassed.rest
  · exact .ite (.pure _) (.ite (.pure _) (.throw _))

/-- The end of a counted repetition. -/
def readCountEnd (part : Syntax) (least : Nat) (most : Option Nat) : Read Syntax := do
  if (← Read.char .badCount) != '\x7d' then throw .badCount
  bumpBlanks
  let greedy := !(← readLazy)
  if most.any (· < least) then throw .badCountRange
  return .repetition part least most greedy

theorem readCountEnd_refines (part : Syntax) (least : Nat) (most : Option Nat) :
    Refines (readCountEnd part least most) (readCountEnd part least most) :=
  .bind (.char _) fun _ => .ite (.throw _) (.bind .bumpBlanks fun _ =>
    .bind readLazy_refines fun _ => .ite (.throw _) (.pure _))

theorem readCounted_refines (part : Syntax) : Refines (readCounted part) (readCounted part) := by
  refine .bind .bumpBlanks fun _ => .atEnd_bind (.throw _) (.bind readCount_refines fun first => ?_)
  refine .bind (.char _) fun c => .ite ?_ ?_
  · refine .bind .bumpBlanks fun _ => .bind (.char _) fun d => .ite ?_ ?_
    · exact .bind (need_refines _) fun least => readCountEnd_refines part least none
    · exact .bind (need_refines _) fun least => .bind readCount_refines fun count =>
        .bind (need_refines _) fun most => readCountEnd_refines part least (some most)
  · exact .bind (need_refines _) fun n => readCountEnd_refines part n (some n)

/-- **What is read as alternatives is read so before a parenthesis.** The parenthesis ends them
as the end of the text does. -/
theorem readBranches_refines {n m : Nat} (h : n ≤ m) (branches parts : List Syntax) :
    Refines (readBranches n branches parts) (readBranches m branches parts) := by
  induction h using steps_induction generalizing branches parts with
  | zero => exact .throw _
  | succ n m h ih =>
    refine .bind .blanks fun _ => .peek_bind (fun o => ?_) (.pure _)
    split
    · exact .pure _
    · exact .pure _
    · exact .bind .bump fun _ => ih _ _
    · -- Groups: flags that are set inside are given back behind the group's own parenthesis.
      refine .get_bind fun s s' hs => ?_
      rw [hs.extended]
      refine Refines.bind readOpening_refines (fun opening => ?_) hs
      have hflags (before : Bool) (changes : List FlagChange) : Refines
          (modify fun s => { s with extended := extendedAfter before changes })
          (modify fun s => { s with extended := extendedAfter before changes }) :=
        .modify fun u u' hu => ⟨hu.rest, rfl, hu.names⟩
      have hclose (before : Bool) (part : Syntax) : Refines
          (do
            if ← atEnd then throw .unclosedGroup
            bump
            modify fun s => { s with extended := before }
            readBranches n branches (part :: parts))
          (do
            if ← atEnd then throw .unclosedGroup
            bump
            modify fun s => { s with extended := before }
            readBranches m branches (part :: parts)) :=
        .atEnd_bind (.throw _) (.bind .bump fun _ =>
          .bind (.modify fun u u' hu => ⟨hu.rest, rfl, hu.names⟩) fun _ => ih _ _)
      cases opening with
      | flags changes => exact .bind (hflags _ _) fun _ => ih _ _
      | capture => exact .bind (ih _ _) fun inner => hclose _ (.capture inner)
      | group changes =>
        exact .bind (hflags _ _) fun _ => .bind (ih _ _) fun inner =>
          hclose _ (.group changes inner)
    · exact .bind readBracketed_refines fun part => ih _ _
    · exact .bind (popRepeated_refines _) fun popped =>
        .bind (readCounted_refines _) fun part => ih _ _
    · exact .bind readEscape_refines fun part => ih _ _
    · refine .ite ?_ (.bind .bump fun _ => ih _ _)
      exact .bind (popRepeated_refines _) fun popped => .bind .bump fun _ =>
        .bind readLazy_refines fun lazy => ih _ _

end Regex

end Descent
