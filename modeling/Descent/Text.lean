/-!
# Text and byte offsets

A subject is read as the list of its characters, and a position in it is the
number of bytes that the UTF-8 form of the text before it takes. Positions are
plain numbers: a caller may ask for any of them, so `Text.from?` answers
`none` for an offset beyond the end or inside a character instead of guessing
a nearby one.

`Text.from?_size_append` says that the offsets where text is found are exactly
the sizes of its initial segments, which is why a parser that only ever adds
the sizes of what it read stays on character boundaries.
-/

namespace Descent

/-- A text, as the list of its characters. -/
abbrev Text := List Char

namespace Text

/-- The number of bytes of the UTF-8 form. -/
def size : Text → Nat
  | [] => 0
  | c :: cs => c.utf8Size + size cs

/-- The text from a byte offset on; `none` beyond the end or inside a character. -/
def from? : Nat → Text → Option Text
  | 0, cs => some cs
  | _ + 1, [] => none
  | n + 1, c :: cs => if c.utf8Size ≤ n + 1 then from? (n + 1 - c.utf8Size) cs else none

/-- An offset is a boundary when text can be read from it, the end included. -/
def IsBoundary (n : Nat) (cs : Text) : Prop := (from? n cs).isSome = true

instance (n : Nat) (cs : Text) : Decidable (IsBoundary n cs) :=
  inferInstanceAs (Decidable (_ = _))

/-- What remains after an exact initial segment. -/
def dropExact? : (expected cs : Text) → Option Text
  | [], cs => some cs
  | _ :: _, [] => none
  | e :: es, c :: cs => if e = c then dropExact? es cs else none

@[simp] theorem size_nil : size [] = 0 := rfl

@[simp] theorem size_cons (c : Char) (cs : Text) : size (c :: cs) = c.utf8Size + size cs := rfl

@[simp] theorem size_append (a b : Text) : size (a ++ b) = size a + size b := by
  induction a with
  | nil => simp
  | cons c a ih => simp [ih, Nat.add_assoc]

theorem size_pos {cs : Text} (h : cs ≠ []) : 0 < size cs := by
  cases cs with
  | nil => exact absurd rfl h
  | cons c cs => exact Nat.add_pos_left c.utf8Size_pos _

@[simp] theorem from?_zero (cs : Text) : from? 0 cs = some cs := by
  cases cs <;> rfl

/-- **What stands before is not seen** from an offset beyond it. -/
theorem from?_size_add_append (a b : Text) (n : Nat) :
    from? (size a + n) (a ++ b) = from? n b := by
  induction a with
  | nil => rw [size_nil, Nat.zero_add, List.nil_append]
  | cons c a ih =>
    have hc : 0 < c.utf8Size := c.utf8Size_pos
    obtain ⟨m, hm⟩ : ∃ m, size (c :: a) + n = m + 1 := ⟨size (c :: a) + n - 1, by simp; omega⟩
    rw [hm, List.cons_append, from?, if_pos (by simp at hm; omega)]
    rw [show m + 1 - c.utf8Size = size a + n by simp at hm; omega]
    exact ih

/-- **An initial segment is stepped over by its size.** -/
@[simp] theorem from?_size_append (a b : Text) : from? (size a) (a ++ b) = some b :=
  (from?_size_add_append a b 0).trans (from?_zero b)

/-- **Where text is found, the offset is the size of what stands before it.** -/
theorem eq_append_of_from? {n : Nat} {cs rest : Text} (h : from? n cs = some rest) :
    ∃ a, cs = a ++ rest ∧ size a = n := by
  induction cs generalizing n with
  | nil =>
    cases n with
    | zero => exact ⟨[], by simpa using h, rfl⟩
    | succ n => simp [from?] at h
  | cons c cs ih =>
    cases n with
    | zero => exact ⟨[], by simpa using h, rfl⟩
    | succ n =>
      rw [from?] at h
      split at h
      · obtain ⟨a, rfl, ha⟩ := ih h
        exact ⟨c :: a, rfl, by simp [ha]; omega⟩
      · exact absurd h (by simp)

/-- An exact initial segment is dropped exactly when it is one. -/
theorem dropExact?_eq_some_iff {expected cs rest : Text} :
    dropExact? expected cs = some rest ↔ cs = expected ++ rest := by
  induction expected generalizing cs with
  | nil => simp [dropExact?]
  | cons e es ih =>
    cases cs with
    | nil => simp [dropExact?]
    | cons c cs =>
      rw [dropExact?]
      split
      · next h => simp [ih, h]
      · next h => simp only [List.cons_append, List.cons.injEq, reduceCtorEq, false_iff,
          not_and]; exact fun hc => absurd hc.symm h

end Text

end Descent
