import Descent.Proofs.Agreement
import Descent.Proofs.Escapes
import Descent.Proofs.Reading
import Descent.Proofs.Repetition

/-!
# What string literals decode to

A string literal is read in fragments: escapes, tried in an order, and runs of
characters that stand for themselves. `Literal.scan` tells what comes of it
without fragments, character by character: a quote ends the literal, a backslash
begins an escape, a newline may be refused, and whatever else there is stands for
itself. `Literal.literalAt` puts the opening quote in front, and
`Literal.quotedWith_literalAt` says that the parser of string literals is this
scan, after what is skipped before the opening quote.

Between the quotes nothing is skipped, so what a parser does there depends on the
text that is left alone. `Parser.Finds` says that it does what a function of that
text tells. Since a fragment is never empty, the fragments of a body are the
pieces that such a function cuts off one after the other (`Parser.Pieces`); the
repetition takes exactly these, and the scan passes over them one by one.
-/

namespace Descent

/-! ## The text of a literal -/

namespace Literal

/-- **The text of a literal, character by character**, from just after the opening
quote on: where the literal ends and what it stands for, or where it goes wrong. -/
def scan (quote : Char) (escape : Escape) (format : StringFormat) (offset : Nat) (read : Text) :
    Text → Except Nat (Nat × Text)
  | [] => .error offset
  | c :: cs =>
    if c = quote then .ok (offset + c.utf8Size, read)
    else if c = '\\' then
      match escapeAt? escape format (c :: cs) with
      | some (whole, t) =>
        scan quote escape format (offset + Text.size whole) (read ++ t)
          (cs.drop (whole.length - 1))
      | none => .error offset
    else if c = '\n' ∧ format.includeNewline = false then .error offset
    else scan quote escape format (offset + c.utf8Size) (read ++ [c]) cs
termination_by rest => rest.length

/-- The reply that tells what came of a scan. -/
def scanned (env : Env) (message : String) : Except Nat (Nat × Text) → Reply String
  | .ok (stop, read) => .ok env stop (String.ofList read)
  | .error offset => .fail message (some offset)

/-- **The literal after what is skipped**: an opening quote and the text after it. A
literal that goes wrong fails where it does so; where no literal begins, the failure
is about the position before what is skipped. -/
def literalAt (quote : Char) (escape : Escape) (format : StringFormat) (message : String)
    (env : Env) (position start : Nat) : Reply String :=
  match env.from? start with
  | some (c :: rest) =>
    if c = quote then
      scanned env message (scan quote escape format (start + quote.utf8Size) [] rest)
    else .fail message (some position)
  | _ => .fail message (some position)

end Literal

/-! ## Parsers that are functions of what is left -/

/-- The reader matches where it begins. -/
def Reader.MatchesHere (read : Reader) : Prop := ∀ ⦃rest m⦄, read rest = some m → m.passed = []

namespace Parser

variable {α β : Type} {p q : Parser α} {find find' : Text → Option (Text × α)}

/-- A reply that tells what was found from a position on: text, with a value. -/
inductive Found (env : Env) (position : Nat) : Reply α → Option (Text × α) → Prop where
  | some (text : Text) (a : α) :
      Found env position (.ok env (position + Text.size text) a) (some (text, a))
  | none (message : String) (about : Option Nat) : Found env position (.fail message about) none

/-- **The parser finds what a function of the text finds** where nothing is skipped. -/
def Finds (p : Parser α) (find : Text → Option (Text × α)) : Prop :=
  ∀ ⦃env n rest⦄, env.skip = none → env.from? n = some rest →
    Eval.Agree (Found env n) (p.run env n) (pure (find rest))

namespace Finds

theorem token {read : Reader} (hread : read.MatchesHere) (message : String) :
    (Parser.token read message).Finds fun rest =>
      (read rest).map fun m => (m.text, String.ofList m.text) := by
  intro env n rest hskip hrest
  simp only [Parser.token, Env.skipFrom, hskip, pure_bind, hrest, Option.bind_some]
  cases hm : read rest with
  | none => exact .pure (.none _ _)
  | some m =>
    have hsize : m.size = Text.size m.text := by
      rw [Match.size, hread hm, Text.size_nil, Nat.zero_add]
    simp only [hsize]
    exact .pure (.some _ _)

/-- A token with a meaning is found where it means something. -/
theorem decoded {read : Reader} (hread : read.MatchesHere) (pattern : String)
    (meaning : Text → Option Text) :
    (Literal.decoded read pattern meaning).Finds fun rest =>
      (read rest).bind fun m => (meaning m.text).map fun t => (m.text, t) := by
  intro env n rest hskip hrest
  have htoken := token hread ("Does not match pattern " ++ pattern) hskip hrest
  refine .bind_left htoken fun reply hreply => ?_
  simp only [] at hreply ⊢
  cases hm : read rest with
  | none =>
    rw [hm] at hreply
    obtain ⟨⟩ := hreply
    exact .pure (.none _ _)
  | some m =>
    rw [hm] at hreply
    obtain ⟨⟩ := hreply
    simp only [String.toList_ofList, Option.bind_some]
    cases meaning m.text with
    | none => exact .pure (.none _ _)
    | some t => exact .pure (.some _ _)

theorem map (hp : p.Finds find) (f : α → β) :
    (p.map f).Finds fun rest => (find rest).map fun e => (e.1, f e.2) := by
  intro env n rest hskip hrest
  refine .bind_left (hp hskip hrest) fun reply hreply => ?_
  simp only []
  generalize find rest = found at hreply ⊢
  cases hreply with
  | some text a => exact .pure (.some _ _)
  | none message about => exact .pure (.none _ _)

theorem congr (hp : p.Finds find) (h : ∀ rest, find rest = find' rest) : p.Finds find' :=
  funext h ▸ hp

/-- **The first function that finds something** is the one of an ordered choice. -/
theorem orElse (hp : p.Finds find) (hq : q.Finds find') :
    (p.orElse q).Finds fun rest => (find rest).or (find' rest) := by
  intro env n rest hskip hrest
  refine .bind_left (hp hskip hrest) fun reply hreply => ?_
  simp only []
  generalize find rest = found at hreply ⊢
  cases hreply with
  | some text a => exact .pure (.some _ _)
  | none message about => exact .emit_left _ (hq hskip hrest)

end Finds

/-! ## Repetitions of what is found -/

/-- **The pieces of a text** that a function cuts off one after the other, each with
its value, until it finds none; none of them is empty. -/
inductive Pieces (find : Text → Option (Text × α)) : Text → List (Text × α) → Text → Prop where
  | stop {rest : Text} (h : find rest = none) : Pieces find rest [] rest
  | piece {text rest left : Text} {a : α} {pieces : List (Text × α)}
      (h : find (text ++ rest) = some (text, a)) (hne : text ≠ [])
      (more : Pieces find rest pieces left) : Pieces find (text ++ rest) ((text, a) :: pieces) left

/-- **A text has its pieces**, if what is found is never empty and stands first. The
induction is on the text that is left: every piece takes some. -/
theorem exists_pieces (hfind : ∀ rest text a, find rest = some (text, a) →
    text ≠ [] ∧ text <+: rest) (rest : Text) : ∃ pieces left, Pieces find rest pieces left := by
  induction hlength : rest.length using Nat.strongRecOn generalizing rest with
  | ind length ih =>
    cases hpiece : find rest with
    | none => exact ⟨[], rest, .stop hpiece⟩
    | some e =>
      obtain ⟨text, a⟩ := e
      obtain ⟨hne, after, rfl⟩ := hfind _ _ _ hpiece
      have hless : after.length < length := by
        rw [← hlength, List.length_append]
        have := List.length_pos_iff.mpr hne
        omega
      obtain ⟨pieces, left, hmore⟩ := ih _ hless after rfl
      exact ⟨_, left, .piece hpiece hne hmore⟩

variable {env : Env} {n : Nat} {rest left : Text} {pieces : List (Text × Text)}

namespace Pieces

/-- The text of the pieces. -/
def text (pieces : List (Text × α)) : Text := (pieces.map Prod.fst).flatten

/-- The values of the pieces, joined. -/
def value (pieces : List (Text × Text)) : Text := (pieces.map Prod.snd).flatten

@[simp] theorem text_nil : text ([] : List (Text × α)) = [] := rfl

@[simp] theorem text_cons (w : Text) (a : α) (pieces : List (Text × α)) :
    text ((w, a) :: pieces) = w ++ text pieces := rfl

@[simp] theorem value_nil : value [] = [] := rfl

@[simp] theorem value_cons (w t : Text) (pieces : List (Text × Text)) :
    value ((w, t) :: pieces) = t ++ value pieces := rfl

/-- A text is its pieces and what is left. -/
theorem eq_append {find : Text → Option (Text × Text)} (h : Pieces find rest pieces left) :
    rest = text pieces ++ left := by
  induction h with
  | stop h => rfl
  | piece h hne more ih => rw [text_cons, List.append_assoc, ← ih]

end Pieces

/-- What is found is read, at every budget. -/
theorem Finds.done_of_some (hp : p.Finds find) (hskip : env.skip = none)
    (hrest : env.from? n = some rest) {w : Text} {a : α} (h : find rest = some (w, a))
    (budget : Nat) (k : Knots) :
    ∃ log, p.run env n budget k = .done (.ok env (n + Text.size w) a) log k := by
  obtain ⟨reply, log, hreply, hrun⟩ := Eval.Agree.pure_right_iff.mp (hp hskip hrest) budget k
  rw [h] at hreply
  obtain ⟨⟩ := hreply
  exact ⟨log, hrun⟩

/-- Where nothing is found the parser fails, at every budget. -/
theorem Finds.done_of_none (hp : p.Finds find) (hskip : env.skip = none)
    (hrest : env.from? n = some rest) (h : find rest = none) (budget : Nat) (k : Knots) :
    ∃ message about log, p.run env n budget k = .done (.fail message about) log k := by
  obtain ⟨reply, log, hreply, hrun⟩ := Eval.Agree.pure_right_iff.mp (hp hskip hrest) budget k
  rw [h] at hreply
  cases hreply with
  | none message about => exact ⟨message, about, log, hrun⟩

/-- Where text is left and nothing is skipped, the empty text stands. -/
theorem string_empty_run (hskip : env.skip = none) (hrest : env.from? n = some rest)
    (budget : Nat) (k : Knots) : (string "").run env n budget k = .done (.ok env n "") [] k := by
  have hread : Reader.exact "".toList rest = some (Match.here []) := rfl
  simp only [string, stringWith, token, Env.skipFrom, hskip, pure_bind, hrest, Option.bind_some,
    hread]
  rfl

/-- **The rounds of a repetition are the pieces**, each in the environment of the
first. -/
theorem Pieces.exists_chain {item : Parser Text} {find : Text → Option (Text × Text)}
    (h : Pieces find rest pieces left) (hitem : item.Finds find) (hskip : env.skip = none)
    (hlength : env.length ≤ maxPosition) (hrest : env.from? n = some rest) (budget : Nat)
    (k : Knots) : ∃ chain log, Chain item (string "") budget env n k chain log k
      ∧ (∀ a, Round.reply env n chain a = .ok env (n + Text.size (Pieces.text pieces)) a)
      ∧ ∀ first, Round.foldLeft (fun acc _ a => acc ++ a) first chain
          = first ++ Pieces.value pieces := by
  induction h generalizing n with
  | @stop rest h =>
    obtain ⟨message, about, log, hrun⟩ := hitem.done_of_none hskip hrest h budget k
    have hempty := string_empty_run hskip hrest budget k
    exact ⟨[], _, .stop (.noItem hempty hrun), fun a => rfl, fun first => by simp⟩
  | @piece w rest left t pieces h hne more ih =>
    obtain ⟨log, hrun⟩ := hitem.done_of_some hskip hrest h budget k
    have hafter := Env.from?_add hrest
    obtain ⟨chain, log', hchain, hend, hfold⟩ := ih hafter
    have hempty := string_empty_run hskip hrest budget k
    have hbeyond : n < n + Text.size w := Nat.lt_add_of_pos_right (Text.size_pos hne)
    have hword : n + Text.size w ≤ maxPosition := by
      have := Env.add_size_eq hafter
      omega
    refine ⟨_, _, .round (.intro hempty hrun hbeyond hword) hchain, fun a => ?_, fun first => ?_⟩
    · rw [Round.reply, hend, text_cons, Text.size_append, Nat.add_assoc]
    · rw [Round.foldLeft_cons, hfold, value_cons, List.append_assoc]

/-- **A repetition takes the pieces**, and joins their values. -/
theorem Finds.foldMany {item : Parser Text} {find : Text → Option (Text × Text)}
    (hitem : item.Finds find) (hpieces : Pieces find rest pieces left) (hskip : env.skip = none)
    (hlength : env.length ≤ maxPosition) (hrest : env.from? n = some rest) :
    Eval.Agree Eq ((item.foldMany (fun a b => a ++ b) []).run env n)
      (pure (.ok env (n + Text.size (Pieces.text pieces)) (Pieces.value pieces))) := by
  refine Eval.Agree.pure_right_iff.mpr fun budget k => ?_
  cases hpieces with
  | stop h =>
    obtain ⟨message, about, log, hrun⟩ := hitem.done_of_none hskip hrest h budget k
    have hnone : (item.foldMany1 fun a b => a ++ b).run env n budget k
        = .done (.fail message about) log k := by
      rw [foldMany1_eq_repetition]
      exact repetition_of_fail _ hrun
    exact ⟨_, _, rfl, Eval.bind_eq_done_iff.mpr ⟨_, _, _, [], hnone, rfl, rfl⟩⟩
  | @piece w rest left t pieces h hne more =>
    obtain ⟨log, hrun⟩ := hitem.done_of_some hskip hrest h budget k
    obtain ⟨chain, log', hchain, hend, hfold⟩ :=
      more.exists_chain hitem hskip hlength (Env.from?_add hrest) budget k
    have hsome := ((Repeats.foldMany (fun acc a => acc ++ a) []).eq_done_iff hrun).mpr
      ⟨chain, log', hchain, rfl, rfl⟩
    rw [hend, hfold] at hsome
    refine ⟨_, _, ?_, hsome⟩
    rw [Pieces.text_cons, Pieces.value_cons, Text.size_append, Nat.add_assoc]

end Parser

/-! ## The fragments of a literal -/

namespace Literal

open Descent.Parser (Finds Pieces)

variable {quote : Char} {escape : Escape} {format : StringFormat} {rest left w t : Text}

/-- The run at the beginning of a text of characters that stand for themselves. -/
def run? (quote : Char) (format : StringFormat) (rest : Text) : Option (Text × Text) :=
  match rest.takeWhile (isPlain quote format) with
  | [] => none
  | run => some (run, run)

theorem run?_eq_some_iff : run? quote format rest = some (w, t)
    ↔ w ≠ [] ∧ rest.takeWhile (isPlain quote format) = w ∧ t = w := by
  rw [run?]
  cases hrun : rest.takeWhile (isPlain quote format) with
  | nil =>
    refine ⟨fun h => absurd h (by simp), fun h => ?_⟩
    exact absurd h.2.1.symm h.1
  | cons c cs =>
    simp only [Option.some.injEq, Prod.mk.injEq]
    constructor
    · rintro ⟨rfl, rfl⟩
      exact ⟨List.cons_ne_nil _ _, rfl, rfl⟩
    · rintro ⟨-, rfl, rfl⟩
      exact ⟨rfl, rfl⟩

/-- The fragment at the beginning of a text: an escape or a run. -/
def piece? (quote : Char) (escape : Escape) (format : StringFormat) (rest : Text) :
    Option (Text × Text) :=
  (escapeAt? escape format rest).or (run? quote format rest)

theorem finds_code (form : CodeForm) : (code form).Finds form.found? := by
  refine Finds.decoded (fun rest m hm => ?_) form.pattern form.meaning
  obtain ⟨digits, -, rfl⟩ := Option.map_eq_some_iff.mp hm
  rfl

theorem matchesHere_pairReader : Reader.MatchesHere pairReader := by
  intro rest m h
  unfold pairReader at h
  split at h
  · simp only [Option.ite_none_left_eq_some, Option.some.injEq] at h
    rw [← h.2]
    rfl
  · exact absurd h (by simp)

theorem finds_pair (escape : Escape) : (pair escape).Finds (pair? escape) := by
  refine (Finds.decoded matchesHere_pairReader _ _).congr fun rest => ?_
  rcases rest with _ | ⟨b, _ | ⟨c, cs⟩⟩
  · simp [pairReader, pair?]
  · simp [pairReader, pair?]
  · by_cases hb : b = '\\'
    · subst hb
      by_cases hc : c = '\n'
      · simp [pairReader, pair?, hc]
      · simp [pairReader, pair?, hc, pairMeaning, Match.here]
    · simp [pairReader, pair?, hb]

theorem matchesHere_run1 (accept : Char → Bool) : Reader.MatchesHere (Reader.run1 accept) := by
  intro rest m h
  unfold Reader.run1 at h
  split at h
  · exact absurd h (by simp)
  · rw [← Option.some.inj h]
    rfl

theorem finds_plain (quote : Char) (format : StringFormat) :
    (plain quote format).Finds (run? quote format) := by
  refine ((Finds.token (matchesHere_run1 _) _).map String.toList).congr fun rest => ?_
  unfold Reader.run1 run?
  cases rest.takeWhile (isPlain quote format) with
  | nil => rfl
  | cons c cs => simp [Match.here]

/-- **Alternatives joined from the left** find what the first of them finds. -/
theorem finds_forms (forms : List CodeForm) {p : Parser Text} {find : Text → Option (Text × Text)}
    (hp : p.Finds find) : ((forms.map code).foldl Parser.orElse p).Finds fun rest =>
      (find rest).or (forms.findSome? (·.found? rest)) := by
  induction forms generalizing p find with
  | nil => simpa using hp
  | cons form forms ih =>
    have hrest := ih (hp.orElse (finds_code form))
    refine hrest.congr fun rest => ?_
    rw [List.findSome?_cons, Option.or_assoc]
    cases form.found? rest with
    | none => rfl
    | some e => rfl

/-- The forms by number that a format allows find the first escape that denotes a
character. -/
theorem findSome?_codeForms (format : StringFormat) (rest : Text) :
    format.codeForms.findSome? (·.found? rest)
      = ((NumberForm.inOrder.filter (·.isAllowed format)).findSome? (·.escape? rest)).map
          fun e => (e.1, [e.2]) := by
  rw [NumberForm.codeForms_eq, List.findSome?_map, List.map_findSome?]
  exact congrArg (List.findSome? · _) (funext fun form => form.found?_code rest)

theorem escapeAt?_eq_or (escape : Escape) (format : StringFormat) (rest : Text) :
    escapeAt? escape format rest
      = (format.codeForms.findSome? (·.found? rest)).or (pair? escape rest) := by
  rw [findSome?_codeForms, escapeAt?]
  cases (NumberForm.inOrder.filter (·.isAllowed format)).findSome? (·.escape? rest) with
  | none => exact Option.none_or.symm
  | some e => rfl

/-- **A fragment is an escape or a run.** -/
theorem finds_fragment (quote : Char) (escape : Escape) (format : StringFormat) :
    (fragment quote escape format).Finds (piece? quote escape format) := by
  unfold fragment
  cases hforms : format.codeForms with
  | nil =>
    refine ((finds_pair escape).orElse (finds_plain quote format)).congr fun rest => ?_
    rw [piece?, escapeAt?_eq_or, hforms, List.findSome?_nil, Option.none_or]
  | cons form forms =>
    have hcodes := finds_forms forms (finds_code form)
    refine ((hcodes.orElse (finds_pair escape)).orElse (finds_plain quote format)).congr
      fun rest => ?_
    rw [piece?, escapeAt?_eq_or, hforms, List.findSome?_cons]
    cases form.found? rest with
    | none => rfl
    | some e => rfl

/-! ## Fragments and characters -/

/-- **A fragment is not empty and stands first.** -/
theorem isPrefix_of_piece? (h : piece? quote escape format rest = some (w, t)) :
    w ≠ [] ∧ w <+: rest := by
  obtain hescape | ⟨-, hrun⟩ := Option.or_eq_some_iff.mp h
  · exact isPrefix_of_escapeAt? hescape
  · obtain ⟨hne, rfl, -⟩ := run?_eq_some_iff.mp hrun
    exact ⟨hne, List.takeWhile_prefix _⟩

theorem isPlain_eq_true_iff {c : Char} : isPlain quote format c = true
    ↔ c ≠ quote ∧ c ≠ '\\' ∧ ¬(c = '\n' ∧ format.includeNewline = false) := by
  simp only [isPlain, Bool.and_eq_true, bne_iff_ne, Bool.or_eq_true, ne_eq, not_and_or,
    Bool.not_eq_false]
  exact ⟨fun ⟨⟨h, h'⟩, hline⟩ => ⟨h', h, hline.symm⟩, fun ⟨h, h', hline⟩ => ⟨⟨h', h⟩, hline.symm⟩⟩

/-- The scan passes over a run of characters that stand for themselves. -/
theorem scan_run {run : Text} (hrun : ∀ c ∈ run, isPlain quote format c = true) (offset : Nat)
    (read : Text) : scan quote escape format offset read (run ++ rest)
      = scan quote escape format (offset + Text.size run) (read ++ run) rest := by
  induction run generalizing offset read with
  | nil => simp
  | cons c run ih =>
    obtain ⟨hquote, hbackslash, hnewline⟩ := isPlain_eq_true_iff.mp (hrun c List.mem_cons_self)
    rw [List.cons_append, scan, if_neg hquote, if_neg hbackslash, if_neg hnewline,
      ih fun x hx => hrun x (List.mem_cons_of_mem c hx), Text.size_cons, Nat.add_assoc,
      List.append_assoc]
    rfl

/-- The scan passes over an escape. -/
theorem scan_escape (hquote : quote ≠ '\\')
    (h : escapeAt? escape format (w ++ rest) = some (w, t)) (offset : Nat) (read : Text) :
    scan quote escape format offset read (w ++ rest)
      = scan quote escape format (offset + Text.size w) (read ++ t) rest := by
  obtain ⟨hne, -⟩ := isPrefix_of_escapeAt? h
  cases w with
  | nil => exact absurd rfl hne
  | cons c w =>
    have hc : c = '\\' := by
      by_contra hc
      rw [List.cons_append, escapeAt?_of_ne hc] at h
      exact absurd h (by simp)
    subst hc
    rw [List.cons_append] at h ⊢
    rw [scan, if_neg (Ne.symm hquote), if_pos rfl, h]
    simp only [List.length_cons, Nat.add_sub_cancel, List.drop_left]

/-- **The scan passes over a fragment.** -/
theorem scan_piece (hquote : quote ≠ '\\')
    (h : piece? quote escape format (w ++ rest) = some (w, t)) (offset : Nat) (read : Text) :
    scan quote escape format offset read (w ++ rest)
      = scan quote escape format (offset + Text.size w) (read ++ t) rest := by
  obtain hescape | ⟨-, hrun⟩ := Option.or_eq_some_iff.mp h
  · exact scan_escape hquote hescape offset read
  · obtain ⟨-, hw, rfl⟩ := run?_eq_some_iff.mp hrun
    refine scan_run (fun c hc => ?_) offset read
    rw [← hw] at hc
    exact List.mem_takeWhile_imp hc

/-- **The scan ends where no fragment stands**: at the quote, or it goes wrong. -/
theorem scan_stop (h : piece? quote escape format rest = none) (offset : Nat) (read : Text) :
    scan quote escape format offset read rest
      = if rest.head? = some quote then .ok (offset + quote.utf8Size, read) else .error offset := by
  obtain ⟨hescape, hrun⟩ := Option.or_eq_none_iff.mp h
  cases rest with
  | nil => rw [scan]; rfl
  | cons c cs =>
    rw [scan, List.head?_cons]
    by_cases hquote : c = quote
    · rw [if_pos hquote, if_pos (congrArg some hquote), hquote]
    rw [if_neg hquote, if_neg (fun heq => hquote (Option.some.inj heq))]
    by_cases hbackslash : c = '\\'
    · rw [if_pos hbackslash, hescape]
    rw [if_neg hbackslash, if_pos]
    by_contra hnewline
    have hplain := isPlain_eq_true_iff.mpr ⟨hquote, hbackslash, hnewline⟩
    rw [run?, List.takeWhile_cons_of_pos hplain] at hrun
    exact absurd hrun (by simp)

/-- **The scan ends where the pieces do.** -/
theorem scan_pieces {pieces : List (Text × Text)} (hquote : quote ≠ '\\')
    (h : Pieces (piece? quote escape format) rest pieces left) (offset : Nat) (read : Text) :
    scan quote escape format offset read rest
      = if left.head? = some quote then
          .ok (offset + Text.size (Pieces.text pieces) + quote.utf8Size,
            read ++ Pieces.value pieces)
        else .error (offset + Text.size (Pieces.text pieces)) := by
  induction h generalizing offset read with
  | stop h =>
    rw [scan_stop h, Pieces.text_nil, Pieces.value_nil, List.append_nil]
    rfl
  | piece h hne more ih =>
    rw [scan_piece hquote h, ih, Pieces.text_cons, Pieces.value_cons, Text.size_append,
      ← Nat.add_assoc, List.append_assoc]

/-! ## The whole literal -/

/-- What the text of the quote does, at any position. -/
theorem string_quote_run (quote : Char) (env : Env) (position : Nat) :
    (Parser.string (String.singleton quote)).run env position
      = env.skipFrom position >>= fun start =>
          pure (if (env.from? start).bind List.head? = some quote then
              .ok env (start + quote.utf8Size) (String.singleton quote)
            else .fail ("Does not match " ++ String.singleton quote) (some position)) := by
  refine congrArg (env.skipFrom position >>= ·) (funext fun start => ?_)
  rw [String.toList_singleton]
  cases env.from? start with
  | none => rfl
  | some rest =>
    cases rest with
    | nil => rfl
    | cons c cs =>
      by_cases hc : quote = c
      · subst hc
        simp [Reader.exact, Text.dropExact?, Match.size, Match.here]
      · simp [Reader.exact, Text.dropExact?, hc, Ne.symm hc]

/-- The reply of a literal whose quotes and fragments replied so. -/
def reworded (message : String) : Reply Text → Reply String
  | .ok env stop read => .ok env stop (String.ofList read)
  | .fail _ about => .fail message about

/-- **The fragments and the closing quote** are what the scan says. -/
theorem body_scanned (hquote : quote ≠ '\\') (message : String) {env : Env} {n : Nat}
    (hlength : env.length ≤ maxPosition) (hrest : env.from? n = some rest) :
    Eval.Agree (reworded message · = ·)
      ((body quote escape format).run env n)
      (pure (scanned env message (scan quote escape format n [] rest))) := by
  have hfirst : ∀ rest w t, piece? quote escape format rest = some (w, t) → w ≠ [] ∧ w <+: rest :=
    fun _ _ _ => isPrefix_of_piece?
  obtain ⟨pieces, left, hpieces⟩ := Parser.exists_pieces hfirst rest
  have hskip : env.withoutSkip.skip = none := rfl
  have hmany := (finds_fragment quote escape format).foldMany hpieces hskip hlength hrest
  have hleft : env.withoutSkip.from? (n + Text.size (Pieces.text pieces)) = some left :=
    Env.from?_add (hpieces.eq_append ▸ hrest)
  rw [scan_pieces hquote hpieces, body, Parser.inEnv, Parser.seqLeft]
  simp only [bind_assoc]
  refine .bind_left hmany fun reply hreply => ?_
  obtain rfl := hreply
  simp only [string_quote_run, Env.skipFrom, hskip, pure_bind, hleft, Option.bind_some,
    List.nil_append]
  by_cases hclose : left.head? = some quote
  · simp only [if_pos hclose, pure_bind]
    exact .pure rfl
  · simp only [if_neg hclose, pure_bind]
    exact .pure rfl

/-- **Both quotes and what stands between them** are the literal after what is skipped. -/
theorem seqRight_body_literalAt (hquote : quote ≠ '\\') (message : String) {env : Env}
    (hlength : env.length ≤ maxPosition) (position : Nat) :
    Eval.Agree (reworded message · = ·)
      (((Parser.string (String.singleton quote)).seqRight (body quote escape format)).run env
        position)
      (env.skipFrom position >>= fun start =>
        pure (literalAt quote escape format message env position start)) := by
  rw [Parser.seqRight, Parser.bind]
  simp only [string_quote_run, bind_assoc, pure_bind]
  refine .bind_same fun start => ?_
  rw [literalAt]
  cases hrest : env.from? start with
  | none => exact .pure rfl
  | some rest =>
    cases rest with
    | nil => exact .pure rfl
    | cons c rest =>
      simp only [Option.bind_some, List.head?_cons, Option.some.injEq]
      by_cases hc : c = quote
      · subst hc
        rw [if_pos rfl, if_pos rfl]
        exact body_scanned hquote message hlength (Env.from?_add (u := [c]) hrest)
      · rw [if_neg hc, if_neg hc]
        exact .pure rfl

/-- A literal whose quotes and fragments are read is read, whatever its message. -/
theorem quotedWith_of_ok {message : String} {env env' : Env} {n stop budget : Nat} {read : Text}
    {k k' : Knots} {log : List Event}
    (h : ((Parser.string (String.singleton quote)).seqRight (body quote escape format)).run env n
      budget k = .done (.ok env' stop read) log k') :
    (quotedWith quote escape format message).run env n budget k
      = .done (.ok env' stop (String.ofList read)) log k' := by
  refine Eval.bind_eq_done_iff.mpr ⟨.ok env' stop (String.ofList read), log, k', [], ?_, rfl,
    (List.append_nil log).symm⟩
  exact Eval.bind_eq_done_iff.mpr ⟨_, log, k', [], h, rfl, (List.append_nil log).symm⟩

/-- Only the failures of a literal are worded anew. -/
theorem quotedWith_agree {message : String} (hmessage : message ≠ "") {env : Env} {position : Nat}
    {y : Eval (Reply String)}
    (h : Eval.Agree (reworded message · = ·)
      (((Parser.string (String.singleton quote)).seqRight (body quote escape format)).run env
        position) y) :
    Eval.Agree Eq ((quotedWith quote escape format message).run env position) y := by
  have hworded : message.isEmpty = false := by
    rw [String.isEmpty_eq_false_iff]
    exact hmessage
  rw [quotedWith, Parser.withMessage, Parser.mapMessage, Parser.mapFailure, Parser.map,
    ← bind_pure y]
  simp only [bind_assoc, pure_bind, hworded]
  refine .bind h fun reply reply' hreply => ?_
  cases reply with
  | ok env stop read => exact .pure hreply
  | fail message' about => exact .pure hreply

/-- **A string literal decodes as the scan says**, at every position of every
environment: whether it succeeds, with which value and where, or where it fails. A
subject is no longer than there are positions. -/
theorem quotedWith_literalAt (quote : Char) (hquote : quote ≠ '\\') (escape : Escape)
    (format : StringFormat) (message : String) (hmessage : message ≠ "") (env : Env)
    (hlength : env.length ≤ maxPosition) (position : Nat) :
    Eval.Agree Eq ((quotedWith quote escape format message).run env position) (do
      let start ← env.skipFrom position
      pure (literalAt quote escape format message env position start)) :=
  quotedWith_agree hmessage (seqRight_body_literalAt hquote message hlength position)

/-- A blank to skip, a character that stands for itself, and an escape in braces. -/
theorem quotedWith_literalAt_braces :
    let env : Env := ⟨" 'a\\u\x7be9\x7d'".toList, some (Parser.string " ").scan, none⟩
    ∃ log, (quotedWith '\'' .js .js "No literal").run env 0 0 .initial
      = .done (.ok env 10 "a\u00e9") log .initial := by
  intro env
  have hplain : ∀ c ∈ ['a'], isPlain '\'' .js c = true := by
    intro c hc
    obtain rfl := List.mem_singleton.mp hc
    decide
  have hescape : escapeAt? .js .js ("\\u\x7be9\x7d".toList ++ ['\''])
      = some ("\\u\x7be9\x7d".toList, ['\u00e9']) := by decide +kernel
  have hscan : scan '\'' .js .js 2 [] (['a'] ++ ("\\u\x7be9\x7d".toList ++ ['\'']))
      = .ok (10, ['a', '\u00e9']) := by
    rw [scan_run hplain, scan_escape (by decide) hescape, scan, if_pos rfl]
    rfl
  have hliteral : literalAt '\'' .js .js "No literal" env 0 1 = .ok env 10 "a\u00e9" :=
    congrArg (scanned env "No literal") hscan
  have hskip : env.skipFrom 0 0 .initial = .done 1 [] .initial := rfl
  obtain ⟨reply, log, rfl, hdone⟩ := (quotedWith_literalAt '\'' (by decide) .js .js "No literal"
    (by decide) env (by decide) 0).exists_left
      (Eval.bind_eq_done_iff.mpr ⟨1, [], .initial, [], hskip, rfl, rfl⟩)
  exact ⟨log, hliteral ▸ hdone⟩

end Literal

end Descent
