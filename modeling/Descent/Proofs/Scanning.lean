import Descent.Regex.Matching

/-!
# Searches with one way to go on

Among the matches that begin at one place, a search finds the one that the order of
preference puts first, and this is not the longest one in general: `a|ab` finds `a` at
the beginning of `ab`. It is the longest one where a program never has more than one way
to go on with a character, and prefers going on to ending.

Such a program follows a `Regex.Scanner`: states, a step with each character, and the
states in which a match may end. What a program has to do at one place for this is said
by `Regex.Program.Scans`. From it the search is known altogether
(`Regex.Program.Scans.find?_eq`): it keeps the last place at which a match could end, and
that is the end of the longest text which leads from the first state to an end.
-/

namespace Descent

/-! ## The longest text of a kind -/

/-- **The longest initial segment of a text** among those of a kind. -/
structure IsLongest (P : Text → Prop) (w cs : Text) : Prop where
  kind : P w
  isPrefix : w <+: cs
  longest : ∀ u, P u → u <+: cs → u.length ≤ w.length

/-- There is only one longest initial segment. -/
theorem IsLongest.unique {P : Text → Prop} {w w' cs : Text} (h : IsLongest P w cs)
    (h' : IsLongest P w' cs) : w = w' := by
  have hlength : w.length = w'.length :=
    Nat.le_antisymm (h'.longest w h.kind h.isPrefix) (h.longest w' h'.kind h'.isPrefix)
  have hprefix : w <+: w' :=
    List.prefix_of_prefix_length_le h.isPrefix h'.isPrefix (Nat.le_of_eq hlength)
  exact hprefix.eq_of_length hlength

namespace Reader

/-- **A reader finds the longest text of a kind**, where the text begins that it is given. -/
def FindsLongest (read : Reader) (P : Text → Prop) : Prop :=
  ∀ cs, (∃ w, read cs = some (.here w) ∧ IsLongest P w cs)
    ∨ read cs = none ∧ ∀ w, w <+: cs → ¬P w

/-- Readers that find the longest text of one kind are the same. -/
theorem FindsLongest.unique {read read' : Reader} {P : Text → Prop} (h : read.FindsLongest P)
    (h' : read'.FindsLongest P) : read = read' := by
  funext cs
  obtain ⟨w, hread, hw⟩ | ⟨hread, hnone⟩ := h cs
  · obtain ⟨w', hread', hw'⟩ | ⟨-, hnone⟩ := h' cs
    · rw [hread, hread', hw.unique hw']
    · exact absurd hw.kind (hnone w hw.isPrefix)
  · obtain ⟨w', -, hw'⟩ | ⟨hread', -⟩ := h' cs
    · exact absurd hw'.kind (hnone w' hw'.isPrefix)
    · rw [hread, hread']

end Reader

namespace Regex

/-! ## Scanners -/

/-- What each character makes of a state, and the states in which a match may end. -/
structure Scanner (σ : Type) where
  init : σ
  step : σ → Char → Option σ
  accepts : σ → Bool

namespace Scanner

variable {σ : Type} (A : Scanner σ)

/-- **The texts that lead from a state to an end.** -/
def Leads : σ → Text → Prop
  | q, [] => A.accepts q = true
  | q, c :: cs => ∃ q', A.step q c = some q' ∧ Leads q' cs

/-- The match that ends last. It ends here only if it can not end further on. -/
def longest : σ → Reader
  | q, [] => if A.accepts q then some (.here []) else none
  | q, c :: cs =>
    (((A.step q c).bind (longest · cs)).map fun m => .here (c :: m.text)).or
      (if A.accepts q then some (.here []) else none)

/-- Where no text of one character or more leads to an end, the match ends here. -/
theorem longest_here {q : σ} {cs : Text} (h : ∀ c w, c :: w <+: cs → ¬A.Leads q (c :: w)) :
    (∃ w, (if A.accepts q then some (Match.here []) else none) = some (.here w)
        ∧ IsLongest (A.Leads q) w cs)
      ∨ (if A.accepts q then some (Match.here []) else none) = none
        ∧ ∀ w, w <+: cs → ¬A.Leads q w := by
  by_cases hq : A.accepts q = true
  · refine .inl ⟨[], if_pos hq, hq, List.nil_prefix, fun u hu hprefix => ?_⟩
    cases u with
    | nil => exact Nat.le_refl _
    | cons c w => exact absurd hu (h c w hprefix)
  · refine .inr ⟨if_neg hq, fun w hprefix hw => ?_⟩
    cases w with
    | nil => exact hq hw
    | cons c w => exact h c w hprefix hw

/-- **A scanner finds the longest text that leads to an end.** -/
theorem findsLongest (q : σ) : (A.longest q).FindsLongest (A.Leads q) := by
  intro cs
  induction cs generalizing q with
  | nil => exact A.longest_here fun c w hprefix => absurd (List.prefix_nil.mp hprefix) nofun
  | cons c cs ih =>
    rw [longest]
    cases hstep : A.step q c with
    | none =>
      refine A.longest_here fun d w hprefix hw => ?_
      obtain ⟨rfl, -⟩ := List.cons_prefix_cons.mp hprefix
      obtain ⟨q', hq', -⟩ := hw
      rw [hstep] at hq'
      cases hq'
    | some q' =>
      rw [Option.bind_some]
      obtain ⟨w, hread, hw⟩ | ⟨hread, hnone⟩ := ih q'
      · rw [hread]
        refine .inl ⟨c :: w, rfl, ⟨q', hstep, hw.kind⟩,
          List.cons_prefix_cons.mpr ⟨rfl, hw.isPrefix⟩, fun u hu hprefix => ?_⟩
        cases u with
        | nil => exact Nat.zero_le _
        | cons d u =>
          obtain ⟨rfl, hu'⟩ := List.cons_prefix_cons.mp hprefix
          obtain ⟨q'', hq'', hu⟩ := hu
          obtain rfl := Option.some.inj (hstep.symm.trans hq'')
          exact Nat.succ_le_succ (hw.longest u hu hu')
      · rw [hread]
        refine A.longest_here fun d w hprefix hw => ?_
        obtain ⟨rfl, hw'⟩ := List.cons_prefix_cons.mp hprefix
        obtain ⟨q'', hq'', hw⟩ := hw
        obtain rfl := Option.some.inj (hstep.symm.trans hq'')
        exact hnone w hw' hw

end Scanner

/-! ## Programs that scan -/

namespace Program

variable {p : Program} {σ : Type} {A : Scanner σ} {node : σ → Nat}

/-- A thread that waits for a character goes on with one. -/
theorem advance_take {s : CharSet} {after : Option Char} {t : Thread} {ts : List Thread}
    {next : Nat} (h : p.nodes[t.node]? = some (.take s next)) :
    p.advance after (t :: ts)
      = (if after.any s.contains then ⟨next, t.start⟩ :: (p.advance after ts).1
          else (p.advance after ts).1, (p.advance after ts).2) := by
  rw [advance, h]
  by_cases hany : after.any s.contains = true
  · rw [if_pos hany]
    exact if_pos hany
  · rw [if_neg hany]
    exact if_neg hany

/-- **Of the threads that wait for characters**, those go on whose sets hold the next one. A
row is the node of a thread, its set and the node it goes on to. -/
theorem advance_rows {rows : List (Nat × CharSet × Nat)}
    (h : ∀ r ∈ rows, p.nodes[r.1]? = some (.take r.2.1 r.2.2)) (after : Option Char)
    (ts : List Thread) :
    p.advance after (rows.map (fun r => ⟨r.1, 0⟩) ++ ts)
      = ((rows.filter fun r => after.any r.2.1.contains).map (fun r => ⟨r.2.2, 0⟩)
          ++ (p.advance after ts).1, (p.advance after ts).2) := by
  induction rows with
  | nil => rfl
  | cons r rows ih =>
    rw [List.map_cons, List.cons_append, advance_take (h r List.mem_cons_self),
      ih fun r' hr' => h r' (List.mem_cons_of_mem r hr'), List.filter_cons]
    split <;> rfl

/-- What happens where the search begins. -/
theorem visit_start {after : Option Char} {ts : List Thread}
    (h : p.settle (Look.holds none after) [⟨p.start, 0⟩] = ts) :
    p.visit none after 0 [] none
      = ((p.advance after ts).1, (p.advance after ts).2.map fun start => (start, 0)) := by
  rw [← h, ← Option.or_none (o := (p.advance after _).2.map fun start => (start, 0))]
  rfl

/-- What happens where no match may begin. -/
theorem visit_again {before : Char} {after : Option Char} {index : Nat} {t : Thread}
    {ts : List Thread} {best : Option (Nat × Nat)} (hp : p.anchored = true)
    (h : p.settle (Look.holds (some before) after) [t] = ts) :
    p.visit (some before) after (index + 1) [t] best
      = ((p.advance after ts).1,
          ((p.advance after ts).2.map fun start => (start, index + 1)).or best) := by
  have hnone : (best.isNone && (decide (index + 1 = 0) || !p.anchored)) = false := by simp [hp]
  unfold Program.visit
  rw [hnone, ← h]
  rfl

/-- The threads that wait in the state after a character. -/
def threadsOf (node : σ → Nat) (q : Option σ) : List Thread := q.toList.map (⟨node ·, 0⟩)

/-- **A program follows a scanner** if the threads that wait in a state go on as the
scanner does, and make a match where it may end. -/
structure Scans (p : Program) (A : Scanner σ) (node : σ → Nat) : Prop where
  anchored : p.anchored = true
  first : ∀ after, ∃ ts, p.settle (Look.holds none after) [⟨p.start, 0⟩] = ts
    ∧ p.advance after ts
      = (threadsOf node (after.bind (A.step A.init)), if A.accepts A.init then some 0 else none)
  next : ∀ q before after, ∃ ts, p.settle (Look.holds (some before) after) [⟨node q, 0⟩] = ts
    ∧ p.advance after ts
      = (threadsOf node (after.bind (A.step q)), if A.accepts q then some 0 else none)

theorem Scans.visit_first (h : p.Scans A node) (after : Option Char) :
    p.visit none after 0 [] none
      = (threadsOf node (after.bind (A.step A.init)),
          (if A.accepts A.init then some (0, 0) else none).or none) := by
  obtain ⟨ts, hsettle, hadvance⟩ := h.first after
  rw [visit_start hsettle, hadvance]
  split <;> rfl

theorem Scans.visit_next (h : p.Scans A node) (q : σ) (before : Char) (after : Option Char)
    (index : Nat) (best : Option (Nat × Nat)) :
    p.visit (some before) after (index + 1) [⟨node q, 0⟩] best
      = (threadsOf node (after.bind (A.step q)),
          (if A.accepts q then some (0, index + 1) else none).or best) := by
  obtain ⟨ts, hsettle, hadvance⟩ := h.next q before after
  rw [visit_again h.anchored hsettle, hadvance]
  split <;> rfl

/-- **The search keeps the last place at which a match could end.** The induction is on
the text that is left. -/
theorem Scans.searchFrom (h : p.Scans A node) {before : Option Char} {index : Nat}
    {arrivals : List Thread} {q : σ} {best : Option (Nat × Nat)} (text : Text)
    (hvisit : ∀ after, p.visit before after index arrivals best
      = (threadsOf node (after.bind (A.step q)),
          (if A.accepts q then some (0, index) else none).or best)) :
    p.searchFrom before index arrivals best text
      = ((A.longest q text).map fun m => (0, index + m.text.length)).or best := by
  induction text generalizing before index arrivals q best with
  | nil =>
    rw [Program.searchFrom, hvisit, Scanner.longest]
    split <;> rfl
  | cons c cs ih =>
    unfold Program.searchFrom
    rw [hvisit, Scanner.longest, Option.bind_some]
    cases hstep : A.step q c with
    | none =>
      rw [Option.bind_none, Option.map_none, Option.none_or]
      by_cases hq : A.accepts q = true
      · rw [if_pos hq, if_pos hq]
        rfl
      · rw [if_neg hq, if_neg hq]
        cases best with
        | none => exact if_pos h.anchored
        | some found => rfl
    | some q' =>
      have hnext : (fun m => (0, index + (c :: m.text).length))
          = fun m : Match => (0, index + 1 + m.text.length) := by
        funext m
        rw [List.length_cons, Nat.add_right_comm, Nat.add_assoc]
      have hhere : (if A.accepts q then some (Match.here []) else none).map
          (fun m => (0, index + m.text.length))
            = if A.accepts q then some (0, index) else none := by
        split <;> rfl
      rw [Option.bind_some, Option.map_or, Option.map_map, hhere, Option.or_assoc]
      show p.searchFrom (some c) (index + 1) [⟨node q', 0⟩] _ cs = _
      rw [ih fun after => h.visit_next q' c after index _]
      exact congrArg (fun f => (Option.map f _).or _) hnext.symm

/-- **What the search finds**: the longest text that leads from the first state to an end. -/
theorem Scans.find?_eq (h : p.Scans A node) : p.find? = A.longest A.init := by
  funext text
  rw [Program.find?, h.searchFrom text h.visit_first, Option.or_none, Option.map_map]
  obtain ⟨w, hread, hw⟩ | ⟨hread, -⟩ := A.findsLongest A.init text
  · have htake : text.take w.length = w := (List.prefix_iff_eq_take.mp hw.isPrefix).symm
    rw [hread, Option.map_some]
    show some (Match.mk [] (text.take (0 + w.length))) = _
    rw [Nat.zero_add, htake]
    rfl
  · rw [hread, Option.map_none]

end Program

end Regex

end Descent
