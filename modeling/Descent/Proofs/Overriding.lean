import Descent.Proofs.Scalars
import Mathlib.Data.List.Nodup

/-!
# Options that are given in part

An object need not name all members of a record. What it names overrides the default and
what it does not name is left as it is by default, in whichever order the members stand,
with blanks between all parts, with names and texts spelled with or without escapes, and
whatever other members stand between them (`partial_options`). A member that is there
twice is refused.

**Names are read, values of others are not.** A member is known by what its name spells,
so every name of the object has to spell something: an escape of one half of a character
stands for none, and an object with such a name is refused, though it is well-formed and
nobody asked for the member (`partial_options_half`). In the values that are passed over,
nobody looks.

**What follows a member does not matter to it.** A name and a value are read to their end
in front of anything that may follow, so that one member says by itself whether it is
refused and what it makes of the record (`Record.Makes`). The members are then taken one
after the other.
-/

namespace Descent

namespace Json

/-! ## Members -/

/-- A member that is given: its name, its value, and what it makes of a record. -/
structure Setting (ρ : Type) where
  name : String
  value : Scalar
  change : ρ → ρ

/-- A member reads to the end of a value as its codec does. -/
structure Field.Regular {ρ : Type} (f : Field ρ) : Prop where
  blanks : ∀ ⦃b⦄, Blanks b → ∀ s, f.read (Source.ofText b ++ s) = f.read s
  delimited : ∀ ⦃v⦄, WellFormed v → ∃ change : Option (ρ → ρ), ∀ ⦃s⦄, Source.EndsNumber s →
    f.read (Source.ofText v ++ s) = change.map (·, s)

theorem Field.Regular.of {ρ α : Type} {codec : Codec α} (h : codec.Regular) (name : String)
    (get : ρ → α) (set : α → ρ → ρ) : (Field.of name codec get set).Regular where
  blanks b hb s := congrArg (Option.map _) (h.blanks hb s)
  delimited v hv := by
    obtain ⟨a, ha⟩ := h.delimited hv
    refine ⟨a.map set, fun s hs => ?_⟩
    show (codec.read _).map _ = _
    rw [ha hs, Option.map_map, Option.map_map]
    rfl

namespace Record

variable {ρ : Type} {record : Record ρ}

/-- **The members of the record read to the end of a value**, and have different names. -/
structure Regular (record : Record ρ) : Prop where
  names : (record.fields.map (·.name)).Nodup
  fields : ∀ f ∈ record.fields, f.Regular

/-- The record has the member of a setting, which reads its value as its change. -/
def Takes (record : Record ρ) (setting : Setting ρ) : Prop :=
  ∃ f ∈ record.fields, f.name = setting.name ∧ ∀ ⦃t⦄, setting.value.WrittenAs t →
    ∀ ⦃s⦄, Source.EndsNumber s → f.read (Source.ofText t ++ s) = some (setting.change, s)

/-- The value of a member with some name is read or passed over. -/
def readMember (record : Record ρ) (seen : List String) (x : ρ) (name : String) :
    Reader (List String × ρ) := fun s =>
  match record.fields.find? (·.name == name) with
  | none => (skipValue s).map fun s => ((seen, x), s)
  | some f =>
    if seen.contains name then none
    else (f.read s).map fun (change, s) => ((name :: seen, change x), s)

/-- **What a member makes** of the names that were seen and of the record, wherever it
stands; `none` if it is refused. -/
def Makes (record : Record ρ) (m : Member) (seen : List String) (x : ρ)
    (made : Option (List String × ρ)) : Prop :=
  ∀ ⦃t⦄, m.Stands t → ∀ ⦃b⦄, Blanks b → ∀ steps s,
    record.readMembers (steps + 1) seen x (Source.ofText t ++ (Source.ofText b ++ some '\x7d' :: s))
      = made.map (fun made => (made.2, s))
    ∧ record.readMembers (steps + 1) seen x (Source.ofText t ++ (Source.ofText b ++ some ',' :: s))
      = made.bind fun made => record.readMembers steps made.1 made.2 s

variable {m : Member} {seen : List String} {x : ρ}

section Reading

variable {key : Text} {s u v : Source}

/-- A member is read: its name, its value behind a colon, and then the object ends or goes
on. -/
theorem readMembers_of_readMember {made : List String × ρ} {w : Source}
    (hkey : readText (dropBlanks s) = some (key, u)) (hcolon : dropBlanks u = some ':' :: v)
    (hmade : record.readMember seen x (String.ofList key) v = some (made, w)) (steps : Nat) :
    (∀ s', dropBlanks w = some '\x7d' :: s' →
      record.readMembers (steps + 1) seen x s = some (made.2, s'))
    ∧ ∀ s', dropBlanks w = some ',' :: s' →
      record.readMembers (steps + 1) seen x s = record.readMembers steps made.1 made.2 s' := by
  rw [readMembers, hkey, Option.bind_eq_bind, Option.bind_some]
  simp only [hcolon]
  rw [readMember] at hmade
  cases hfind : record.fields.find? (·.name == String.ofList key) with
  | none =>
    simp only [hfind] at hmade ⊢
    obtain ⟨w', hskip, heq⟩ := Option.map_eq_some_iff.mp hmade
    obtain ⟨rfl, rfl⟩ := Prod.mk.inj heq
    constructor
    all_goals
      intro s' hs'
      simp only [hskip, Option.map_some, Option.bind_eq_bind, Option.bind_some, hs']
  | some f =>
    simp only [hfind] at hmade ⊢
    split at hmade
    · exact absurd hmade (by simp)
    next hnew =>
      obtain ⟨⟨change, w'⟩, hread, heq⟩ := Option.map_eq_some_iff.mp hmade
      obtain ⟨rfl, rfl⟩ := Prod.mk.inj heq
      rw [if_neg hnew]
      constructor
      all_goals
        intro s' hs'
        simp only [hread, Option.map_some, Option.bind_eq_bind, Option.bind_some, hs']

/-- An object is refused with the value of a member. -/
theorem readMembers_of_readMember_eq_none (hkey : readText (dropBlanks s) = some (key, u))
    (hcolon : dropBlanks u = some ':' :: v)
    (hmade : record.readMember seen x (String.ofList key) v = none) (steps : Nat) :
    record.readMembers (steps + 1) seen x s = none := by
  rw [readMembers, hkey, Option.bind_eq_bind, Option.bind_some]
  simp only [hcolon]
  rw [readMember] at hmade
  cases hfind : record.fields.find? (·.name == String.ofList key) with
  | none =>
    simp only [hfind, Option.map_eq_none_iff] at hmade ⊢
    rw [hmade]
    rfl
  | some f =>
    simp only [hfind] at hmade ⊢
    split at hmade
    next hseen =>
      rw [if_pos hseen]
      rfl
    next hnew =>
      rw [if_neg hnew, Option.map_eq_none_iff.mp hmade]
      rfl

end Reading

/-- A member makes what its value does, after its name. -/
theorem makes_of {name : Text} {made : Option (List String × ρ)}
    (hname : ∀ s, readQuoted [] (Source.ofText m.name ++ some '"' :: s) = some (name, s))
    (hvalue : ∀ ⦃b⦄, Blanks b → ∀ ⦃s⦄, Source.EndsNumber s →
      record.readMember seen x (String.ofList name)
        (Source.ofText b ++ (Source.ofText m.value ++ s)) = made.map (·, s)) :
    record.Makes m seen x made := by
  intro t ht b hb steps s
  obtain ⟨b₁, b₂, hb₁, hb₂, -, htext⟩ := ht.ofText_append
  have hquoted (r : Source) : readText (dropBlanks (Source.ofText t ++ r))
      = some (name, Source.ofText b₁ ++ some ':' :: (Source.ofText b₂
        ++ (Source.ofText m.value ++ r))) := by
    rw [htext, dropBlanks_cons rfl, readText, hname]
  have hcolon (r : Source) := dropBlanks_append_cons hb₁ (c := ':') rfl
    (Source.ofText b₂ ++ (Source.ofText m.value ++ r))
  have hend := hvalue hb₂ (endsNumber_append hb (c := '\x7d') (by simp) s)
  have hmore := hvalue hb₂ (endsNumber_append hb (c := ',') (by simp) s)
  cases made with
  | none =>
    exact ⟨readMembers_of_readMember_eq_none (hquoted _) (hcolon _) hend steps,
      readMembers_of_readMember_eq_none (hquoted _) (hcolon _) hmore steps⟩
  | some made =>
    exact ⟨(readMembers_of_readMember (hquoted _) (hcolon _) hend steps).1 s
        (dropBlanks_append_cons hb rfl s),
      (readMembers_of_readMember (hquoted _) (hcolon _) hmore steps).2 s
        (dropBlanks_append_cons hb rfl s)⟩

/-- A member is refused if its name is. -/
theorem makes_none (hname : ∀ s, readQuoted [] (Source.ofText m.name ++ some '"' :: s) = none)
    (seen : List String) (x : ρ) : record.Makes m seen x none := by
  intro t ht b hb steps s
  obtain ⟨b₁, b₂, -, -, -, htext⟩ := ht.ofText_append
  have hquoted (r : Source) : readText (dropBlanks (Source.ofText t ++ r)) = none := by
    rw [htext, dropBlanks_cons rfl, readText, hname]
  constructor
  · rw [readMembers, hquoted]
    rfl
  · rw [readMembers, hquoted]
    rfl

/-- **A known member makes its change**, and is refused if it was there before. -/
theorem makes_known (hrecord : record.Regular) {f : Field ρ} (hf : f ∈ record.fields)
    (hname : ∀ s, readQuoted [] (Source.ofText m.name ++ some '"' :: s) = some (f.name.toList, s))
    {change : Option (ρ → ρ)} (hchange : ∀ ⦃s⦄, Source.EndsNumber s →
      f.read (Source.ofText m.value ++ s) = change.map (·, s)) :
    record.Makes m seen x
      (if f.name ∈ seen then none else change.map fun change => (f.name :: seen, change x)) := by
  refine makes_of hname fun b hb s hs => ?_
  simp only [readMember, String.ofList_toList, find?_name hrecord.names hf, List.contains_iff_mem,
    (hrecord.fields f hf).blanks hb, hchange hs]
  split
  · rfl
  · cases change <;> rfl

/-- A setting is made by a member that was not there before. -/
theorem makes_setting (hrecord : record.Regular) {setting : Setting ρ}
    (htakes : record.Takes setting) (hname : Spells m.name setting.name.toList)
    (hvalue : setting.value.WrittenAs m.value) (hnew : setting.name ∉ seen) :
    record.Makes m seen x (some (setting.name :: seen, setting.change x)) := by
  obtain ⟨f, hf, hfname, hread⟩ := htakes
  have hmakes : record.Makes m seen x (if f.name ∈ seen then none
      else (some setting.change).map fun change => (f.name :: seen, change x)) :=
    makes_known hrecord hf (hfname ▸ hname.readQuoted []) fun s hs => hread hvalue hs
  rwa [hfname, if_neg hnew] at hmakes

/-- **An unknown member makes nothing.** -/
theorem makes_unknown {name : Text}
    (hname : ∀ s, readQuoted [] (Source.ofText m.name ++ some '"' :: s) = some (name, s))
    (hunknown : ∀ f ∈ record.fields, f.name.toList ≠ name) (hvalue : WellFormed m.value) :
    record.Makes m seen x (some (seen, x)) := by
  refine makes_of hname fun b hb s hs => ?_
  have hfind : record.fields.find? (·.name == String.ofList name) = none := by
    refine List.find?_eq_none.mpr fun f hf hfname => hunknown f hf ?_
    rw [eq_of_beq hfname, String.toList_ofList]
  simp only [readMember, hfind, hvalue.skipValue hb hs, Option.map_some]

/-- **Every member is refused or makes something**, whatever it is named and whatever
well-formed value it has. A known one is noted, and refused if it was there before. -/
theorem exists_makes (hrecord : record.Regular) (hname : Quotable m.name)
    (hvalue : WellFormed m.value) (seen : List String) (x : ρ) :
    ∃ made, record.Makes m seen x made ∧ ∀ seen' x', made = some (seen', x') →
      seen ⊆ seen' ∧ ∀ f ∈ record.fields, Spells m.name f.name.toList →
        f.name ∉ seen ∧ f.name ∈ seen' := by
  obtain ⟨meaning, hmeans⟩ := hname.exists_means
  cases meaning with
  | none => exact ⟨none, makes_none (hmeans.read []) seen x, by simp⟩
  | some name =>
    have hread : ∀ s, readQuoted [] (Source.ofText m.name ++ some '"' :: s) = some (name, s) :=
      hmeans.read []
    have hspelled : ∀ f : Field ρ, Spells m.name f.name.toList → f.name.toList = name := by
      intro f hf
      have hsame := (hf.readQuoted [] []).symm.trans (hread [])
      exact (Prod.mk.inj (Option.some.inj hsame)).1
    by_cases hknown : ∃ f ∈ record.fields, f.name.toList = name
    · obtain ⟨f, hf, rfl⟩ := hknown
      obtain ⟨change, hchange⟩ := (hrecord.fields f hf).delimited hvalue
      refine ⟨_, makes_known hrecord hf hread hchange, fun seen' x' hmade => ?_⟩
      split at hmade
      · exact absurd hmade (by simp)
      next hnew =>
        obtain ⟨change, -, hmade⟩ := Option.map_eq_some_iff.mp hmade
        obtain ⟨rfl, -⟩ := Prod.mk.inj hmade
        refine ⟨List.subset_cons_self _ _, fun g _ hg => ?_⟩
        rw [String.toList_injective (hspelled g hg)]
        exact ⟨hnew, List.mem_cons_self⟩
    · have hunknown : ∀ f ∈ record.fields, f.name.toList ≠ name := fun f hf h => hknown ⟨f, hf, h⟩
      refine ⟨some (seen, x), makes_unknown hread hunknown hvalue, ?_⟩
      intro seen' x' hmade
      obtain ⟨rfl, -⟩ := Prod.mk.inj (Option.some.inj hmade)
      exact ⟨List.Subset.refl _, fun f hf hspells => absurd (hspelled f hspells) (hunknown f hf)⟩

/-- Blanks before a member are passed over with it. -/
theorem readMembers_blanks {b : Text} (hb : Blanks b) (steps : Nat) (s : Source) :
    record.readMembers steps seen x (Source.ofText b ++ s)
      = record.readMembers steps seen x s := by
  cases steps with
  | zero => rw [readMembers, readMembers]
  | succ steps => rw [readMembers, readMembers, dropBlanks_append hb]

section Makes

variable {made : Option (List String × ρ)} {t b : Text}

/-- The last member of an object makes what comes of it. -/
theorem Makes.readMembers_last (h : record.Makes m seen x made) (hm : m.Stands t) (hb : Blanks b)
    (steps : Nat) (s : Source) :
    record.readMembers (steps + 1) seen x (Source.ofText (t ++ (b ++ ['\x7d'])) ++ s)
      = made.map fun made => (made.2, s) := by
  rw [ofText_last]
  exact (h hm hb steps s).1

/-- The members behind one go on with what it makes. -/
theorem Makes.readMembers_more (h : record.Makes m seen x made) (hm : m.Stands t) (hb : Blanks b)
    {b' : Text} (hb' : Blanks b') (rest : Text) (steps : Nat) (s : Source) :
    record.readMembers (steps + 1) seen x (Source.ofText (t ++ (b ++ ',' :: (b' ++ rest))) ++ s)
      = made.bind fun made => record.readMembers steps made.1 made.2 (Source.ofText rest ++ s) := by
  rw [ofText_more, (h hm hb steps _).2]
  simp only [readMembers_blanks hb']

end Makes

/-! ## Objects -/

/-- **The members of an object give settings**, in order: known members with values, and
between them any others. -/
inductive Gives (record : Record ρ) : List Member → List (Setting ρ) → Prop where
  | nil : Gives record [] []
  | known {m : Member} {setting : Setting ρ} {ms : List Member} {order : List (Setting ρ)}
      (hname : Spells m.name setting.name.toList) (hvalue : setting.value.WrittenAs m.value)
      (hrest : Gives record ms order) : Gives record (m :: ms) (setting :: order)
  | unknown {m : Member} {name : String} {ms : List Member} {order : List (Setting ρ)}
      (hname : Spells m.name name.toList) (hunknown : name ∉ record.fields.map (·.name))
      (hvalue : WellFormed m.value) (hrest : Gives record ms order) : Gives record (m :: ms) order

/-- The settings can be made one after the other: the record has their members, and no
member is given twice or was there before. -/
structure Admits (record : Record ρ) (seen : List String) (order : List (Setting ρ)) : Prop where
  takes : ∀ setting ∈ order, record.Takes setting
  names : (order.map (·.name)).Nodup
  new : ∀ setting ∈ order, setting.name ∉ seen

variable {ms : List Member} {t : Text} {order : List (Setting ρ)} {steps : Nat} {s : Source}

/-- **The first member of an object** makes its setting, or nothing. -/
theorem Gives.exists_makes (hrecord : record.Regular) (h : record.Gives (m :: ms) order)
    (hadmits : record.Admits seen order) (x : ρ) :
    ∃ seen' x' order', record.Makes m seen x (some (seen', x')) ∧ record.Gives ms order'
      ∧ record.Admits seen' order'
      ∧ order.foldl (fun x setting => setting.change x) x
        = order'.foldl (fun x setting => setting.change x) x' := by
  cases h with
  | @known _ setting _ order hname hvalue hrest =>
    have hmakes := makes_setting (x := x) hrecord (hadmits.takes setting List.mem_cons_self) hname
      hvalue (hadmits.new setting List.mem_cons_self)
    obtain ⟨hfresh, hnames⟩ := List.nodup_cons.mp hadmits.names
    refine ⟨_, _, order, hmakes, hrest, ⟨?_, hnames, ?_⟩, rfl⟩
    · exact fun setting' h => hadmits.takes setting' (List.mem_cons_of_mem _ h)
    · intro setting' h hmem
      obtain heq | hmem := List.mem_cons.mp hmem
      · exact hfresh (List.mem_map.mpr ⟨setting', h, heq⟩)
      · exact hadmits.new setting' (List.mem_cons_of_mem _ h) hmem
  | @unknown _ name _ _ hname hunknown hvalue hrest =>
    have hother : ∀ f ∈ record.fields, f.name.toList ≠ name.toList :=
      fun f hf heq => hunknown (String.toList_injective heq ▸ List.mem_map_of_mem hf)
    exact ⟨seen, x, order, makes_unknown (hname.readQuoted []) hother hvalue, hrest, hadmits, rfl⟩

/-- **The members of an object make the settings that it gives**, one after the other. The
induction is on the members. -/
theorem readMembers_gives (hrecord : record.Regular)
    (ht : Enumerated Member.Stands '\x7d' ms t) (hgives : record.Gives ms order)
    (hadmits : record.Admits seen order) (hsteps : t.length ≤ steps) :
    record.readMembers steps seen x (Source.ofText t ++ s)
      = some (order.foldl (fun x setting => setting.change x) x, s) := by
  induction ht generalizing order seen x steps with
  | @last m t b hm hb =>
    simp only [List.length_append, List.length_singleton] at hsteps
    obtain ⟨steps, rfl⟩ : ∃ n, steps = n + 1 := ⟨steps - 1, by omega⟩
    obtain ⟨seen', x', order', hmakes, hrest, -, hfold⟩ := hgives.exists_makes hrecord hadmits x
    cases hrest
    rw [hmakes.readMembers_last hm hb, hfold]
    rfl
  | @more m ms t b b' rest hm hb hb' hrest ih =>
    simp only [List.length_append, List.length_cons] at hsteps
    obtain ⟨steps, rfl⟩ : ∃ n, steps = n + 1 := ⟨steps - 1, by omega⟩
    obtain ⟨seen', x', order', hmakes, hgives', hadmits', hfold⟩ :=
      hgives.exists_makes hrecord hadmits x
    rw [hmakes.readMembers_more hm hb hb', Option.bind_some, hfold]
    exact ih hgives' hadmits' (by omega)

/-- A known member is refused if it was there before. -/
theorem makes_none_of_seen (hrecord : record.Regular) (hname : Quotable m.name)
    (hvalue : WellFormed m.value) {f : Field ρ} (hf : f ∈ record.fields)
    (hspells : Spells m.name f.name.toList) (hseen : f.name ∈ seen) (x : ρ) :
    record.Makes m seen x none := by
  obtain ⟨made, hmakes, hmade⟩ := exists_makes hrecord hname hvalue seen x
  cases made with
  | none => exact hmakes
  | some made => exact absurd hseen ((hmade _ _ rfl).2 f hf hspells).1

/-- A member is refused if its name spells nothing. -/
theorem makes_none_of_unnamed (hname : Quotable m.name) (hno : ∀ text, ¬Spells m.name text)
    (seen : List String) (x : ρ) : record.Makes m seen x none := by
  obtain ⟨meaning, hmeans⟩ := hname.exists_means
  cases meaning with
  | none => exact makes_none (hmeans.read []) seen x
  | some text => exact absurd (hmeans.spells text rfl) (hno text)

/-- **One member that is refused** refuses them all. It may be refused for what was seen
before it: more is seen with every member. The induction is on the members. -/
theorem readMembers_refused (hrecord : record.Regular)
    (ht : Enumerated Member.Stands '\x7d' ms t) (hnames : ∀ m ∈ ms, Quotable m.name)
    (hvalues : ∀ m ∈ ms, WellFormed m.value) {P : List String → Prop}
    (hP : ∀ ⦃seen seen'⦄, seen ⊆ seen' → P seen → P seen') (hm : m ∈ ms)
    (hrefused : ∀ seen x, P seen → record.Makes m seen x none) (hseen : P seen) :
    record.readMembers steps seen x (Source.ofText t ++ s) = none := by
  induction ht generalizing seen x steps with
  | @last n t b hstands hb =>
    obtain rfl := List.mem_singleton.mp hm
    cases steps with
    | zero => rw [readMembers]
    | succ steps =>
      rw [(hrefused seen x hseen).readMembers_last hstands hb]
      rfl
  | @more n ms t b b' rest hstands hb hb' hrest ih =>
    obtain ⟨hname, hnames⟩ := List.forall_mem_cons.mp hnames
    obtain ⟨hvalue, hvalues⟩ := List.forall_mem_cons.mp hvalues
    obtain ⟨made, hmakes, hmade⟩ := exists_makes hrecord hname hvalue seen x
    cases steps with
    | zero => rw [readMembers]
    | succ steps =>
      obtain rfl | hm := List.mem_cons.mp hm
      · rw [(hrefused seen x hseen).readMembers_more hstands hb hb']
        rfl
      · rw [hmakes.readMembers_more hstands hb hb']
        cases made with
        | none => rfl
        | some made => exact ih hnames hvalues hm (hP (hmade _ _ rfl).1 hseen)

/-- **A known member is refused if it is there twice.** -/
theorem readMembers_twice (hrecord : record.Regular)
    (ht : Enumerated Member.Stands '\x7d' ms t) (hnames : ∀ m ∈ ms, Quotable m.name)
    (hvalues : ∀ m ∈ ms, WellFormed m.value) {f : Field ρ} (hf : f ∈ record.fields)
    {m m' : Member} (htwo : [m, m'].Sublist ms) (hm : Spells m.name f.name.toList)
    (hm' : Spells m'.name f.name.toList) :
    record.readMembers steps seen x (Source.ofText t ++ s) = none := by
  induction ht generalizing seen x steps with
  | last => exact absurd htwo.length_le (by simp)
  | @more n ms t b b' rest hstands hb hb' hrest ih =>
    obtain ⟨hname, hnames'⟩ := List.forall_mem_cons.mp hnames
    obtain ⟨hvalue, hvalues'⟩ := List.forall_mem_cons.mp hvalues
    obtain ⟨made, hmakes, hmade⟩ := exists_makes hrecord hname hvalue seen x
    cases steps with
    | zero => rw [readMembers]
    | succ steps =>
      rw [hmakes.readMembers_more hstands hb hb']
      cases made with
      | none => rfl
      | some made =>
        cases htwo with
        | cons _ htwo => exact ih hnames' hvalues' htwo
        | cons_cons _ htwo =>
          -- it is noted here, and there again in what follows
          have hmem : m' ∈ ms := htwo.subset List.mem_cons_self
          exact readMembers_refused hrecord hrest hnames' hvalues' (P := (f.name ∈ ·))
            (fun _ _ h hseen => h hseen) hmem
            (fun _ x hseen => makes_none_of_seen hrecord (hnames' m' hmem) (hvalues' m' hmem) hf hm'
              hseen x)
            ((hmade _ _ rfl).2 f hf hm).2

/-- Blanks are all that there is. -/
theorem dropBlanks_ofText {b : Text} (hb : Blanks b) : dropBlanks (Source.ofText b) = [] := by
  have h := dropBlanks_append hb []
  rwa [List.append_nil] at h

/-- **An object is read** by its members, with as many steps as it is long, and nothing but
blanks may follow it. -/
theorem read?_document (record : Record ρ) {text : Text} (h : Document ms text) :
    (ms = [] ∧ record.read? (Source.ofText text) = some record.default)
    ∨ ∃ t steps after, Enumerated Member.Stands '\x7d' ms t ∧ t.length ≤ steps ∧ Blanks after
      ∧ record.read? (Source.ofText text)
        = (record.readMembers steps [] record.default (Source.ofText t ++ Source.ofText after)).bind
            fun read => if (dropBlanks read.2).isEmpty then some read.1 else none := by
  obtain ⟨hbefore, ht, hafter⟩ := h
  rename_i before t after
  rw [ofText_append, ofText_append, read?]
  cases ht with
  | @empty b hb =>
    have hclose : dropBlanks (Source.ofText (b ++ ['\x7d']) ++ Source.ofText after)
        = some '\x7d' :: Source.ofText after := by
      rw [ofText_append, List.append_assoc]
      exact dropBlanks_append_cons hb rfl _
    have hreader : record.reader (Source.ofText before ++ some '\x7b'
        :: (Source.ofText (b ++ ['\x7d']) ++ Source.ofText after))
          = some (record.default, Source.ofText after) := by
      rw [reader, dropBlanks_append_cons hbefore rfl]
      simp only [hclose]
    refine .inl ⟨rfl, (congrArg (Option.bind · _) hreader).trans ?_⟩
    show (if (dropBlanks (Source.ofText after)).isEmpty then some record.default else none) = _
    rw [dropBlanks_ofText hafter]
    rfl
  | @elements _ b t hb ht =>
    obtain ⟨rest, rfl⟩ := ht.exists_quote
    have hfirst : dropBlanks (Source.ofText (b ++ '"' :: rest) ++ Source.ofText after)
        = some '"' :: (Source.ofText rest ++ Source.ofText after) := by
      rw [ofText_append, List.append_assoc]
      exact dropBlanks_append_cons hb rfl _
    have hreader : record.reader (Source.ofText before ++ some '\x7b'
        :: (Source.ofText (b ++ '"' :: rest) ++ Source.ofText after))
          = record.readMembers (some '"' :: (Source.ofText rest ++ Source.ofText after)).length []
              record.default (some '"' :: (Source.ofText rest ++ Source.ofText after)) := by
      rw [reader, dropBlanks_append_cons hbefore rfl]
      simp only [hfirst]
      rfl
    refine .inr ⟨_, _, after, ht, ?_, hafter, congrArg (Option.bind · _) hreader⟩
    simp only [List.length_cons, List.length_append, Source.ofText, List.length_map]
    omega

/-- **Given settings override the default**, and nothing else. -/
theorem ofText_gives (hrecord : record.Regular) {text : String} (h : Document ms text.toList)
    (hgives : record.Gives ms order) (hadmits : record.Admits [] order) :
    record.ofText text
      = .ok (order.foldl (fun x setting => setting.change x) record.default) := by
  have hread : record.read? (Source.ofText text.toList)
      = some (order.foldl (fun x setting => setting.change x) record.default) := by
    obtain ⟨rfl, hread⟩ | ⟨t, steps, after, ht, hsteps, hafter, hread⟩ := read?_document record h
    · cases hgives
      exact hread
    · rw [hread, readMembers_gives hrecord ht hgives hadmits hsteps, Option.bind_some]
      simp only [dropBlanks_ofText hafter]
      rfl
  rw [ofText, ofSource, hread]

/-- A text that is not read is no options. -/
theorem ofText_of_read?_eq_none {text : String}
    (h : record.read? (Source.ofText text.toList) = none) :
    ∃ reason, record.ofText text = .error (.options reason) := by
  rw [ofText, ofSource, h]
  exact ⟨_, rfl⟩

/-- **An object with a known member twice is refused.** -/
theorem ofText_twice (hrecord : record.Regular) {text : String} (h : Document ms text.toList)
    (hnames : ∀ m ∈ ms, Quotable m.name) (hvalues : ∀ m ∈ ms, WellFormed m.value) {f : Field ρ}
    (hf : f ∈ record.fields) {m m' : Member} (htwo : [m, m'].Sublist ms)
    (hm : Spells m.name f.name.toList) (hm' : Spells m'.name f.name.toList) :
    ∃ reason, record.ofText text = .error (.options reason) := by
  refine ofText_of_read?_eq_none ?_
  obtain ⟨rfl, -⟩ | ⟨t, steps, after, ht, -, -, hread⟩ := read?_document record h
  · exact absurd htwo.length_le (by simp)
  · rw [hread, readMembers_twice hrecord ht hnames hvalues hf htwo hm hm']
    rfl

/-- **An object with a member whose name spells nothing is refused.** -/
theorem ofText_unnamed (hrecord : record.Regular) {text : String} (h : Document ms text.toList)
    (hnames : ∀ m ∈ ms, Quotable m.name) (hvalues : ∀ m ∈ ms, WellFormed m.value) (hm : m ∈ ms)
    (hno : ∀ text, ¬Spells m.name text) :
    ∃ reason, record.ofText text = .error (.options reason) := by
  refine ofText_of_read?_eq_none ?_
  obtain ⟨rfl, -⟩ | ⟨t, steps, after, ht, -, -, hread⟩ := read?_document record h
  · exact absurd hm List.not_mem_nil
  · have hrefused : ∀ seen x, True → record.Makes m seen x none :=
      fun seen x _ => makes_none_of_unnamed (hnames m hm) hno seen x
    rw [hread, readMembers_refused hrecord ht hnames hvalues (fun _ _ _ h => h) hm hrefused trivial]
    rfl

/-- **Options may be given in part.** An object that gives some settings, in any order and
with any other members between them, is read as the default with these settings put in. An
object that has a member of the record twice is refused, and so is one that has a member
whose name spells nothing. -/
structure TakesParts {γ : Type} (record : Record ρ) (settings : γ → List (Setting ρ))
    (override : γ → ρ → ρ) : Prop where
  overridden : ∀ ⦃given ms order⦄ ⦃text : String⦄, Document ms text.toList →
    record.Gives ms order → order.Perm (settings given) →
    record.ofText text = .ok (override given record.default)
  twice : ∀ ⦃ms m m' f⦄ ⦃text : String⦄, Document ms text.toList →
    (∀ m ∈ ms, Quotable m.name) → (∀ m ∈ ms, WellFormed m.value) → f ∈ record.fields →
    [m, m'].Sublist ms → Spells m.name f.name.toList → Spells m'.name f.name.toList →
    ∃ reason, record.ofText text = .error (.options reason)
  unnamed : ∀ ⦃ms m⦄ ⦃text : String⦄, Document ms text.toList →
    (∀ m ∈ ms, Quotable m.name) → (∀ m ∈ ms, WellFormed m.value) → m ∈ ms →
    (∀ name, ¬Spells m.name name) → ∃ reason, record.ofText text = .error (.options reason)

/-- It is so if the settings are at different places: then it does not matter in which order
they are put in. -/
theorem TakesParts.of {γ : Type} {settings : γ → List (Setting ρ)} {override : γ → ρ → ρ}
    (hrecord : record.Regular) (htakes : ∀ given, ∀ setting ∈ settings given, record.Takes setting)
    (hnames : ∀ given, ((settings given).map (·.name)).Nodup)
    (hplaces : ∀ given, ∀ a ∈ settings given, ∀ b ∈ settings given, a.name ≠ b.name →
      ∀ x, b.change (a.change x) = a.change (b.change x))
    (hoverride : ∀ given x, (settings given).foldl (fun x setting => setting.change x) x
      = override given x) : record.TakesParts settings override where
  overridden given ms order text h hgives hperm := by
    have hadmits : record.Admits [] order := by
      refine ⟨fun setting hs => htakes given setting (hperm.mem_iff.mp hs), ?_, by simp⟩
      exact (hperm.map (·.name)).nodup_iff.mpr (hnames given)
    rw [ofText_gives hrecord h hgives hadmits, ← hoverride given]
    refine congrArg _ (hperm.foldl_eq' (fun a ha b hb x => ?_) _)
    by_cases hname : a.name = b.name
    · rw [List.inj_on_of_nodup_map hadmits.names ha hb hname]
    · exact hplaces given a (hperm.mem_iff.mp ha) b (hperm.mem_iff.mp hb) hname x
  twice ms m m' f text h hnames hvalues hf htwo hm hm' :=
    ofText_twice hrecord h hnames hvalues hf htwo hm hm'
  unnamed ms m text h hnames hvalues hm hno := ofText_unnamed hrecord h hnames hvalues hm hno

end Record

/-! ## Settings of a place -/

namespace Setting

variable {ρ α : Type} {name : String} {scalar : α → Scalar} {set : α → ρ → ρ} {a? : Option α}

/-- The setting of a place, if a value is given for it. -/
def given (name : String) (scalar : α → Scalar) (set : α → ρ → ρ) (a? : Option α) :
    List (Setting ρ) :=
  (a?.map fun a => ⟨name, scalar a, set a⟩).toList

theorem mem_given {setting : Setting ρ} :
    setting ∈ given name scalar set a? ↔ ∃ a, a? = some a ∧ setting = ⟨name, scalar a, set a⟩ := by
  cases a? with
  | none => simp [given]
  | some a => simp [given]

theorem names_given (name : String) (scalar : α → Scalar) (set : α → ρ → ρ) (a? : Option α) :
    ((given name scalar set a?).map (·.name)).Sublist [name] := by
  cases a? with
  | none => exact List.nil_sublist _
  | some a => exact List.Sublist.refl _

/-- The record takes what is given for a place that it has. -/
theorem takes_given {record : Record ρ} {codec : Codec α} {get : ρ → α}
    (hcodec : codec.ReadsAs scalar) (hf : .of name codec get set ∈ record.fields) :
    ∀ setting ∈ given name scalar set a?, record.Takes setting := by
  intro setting hsetting
  obtain ⟨a, rfl, rfl⟩ := mem_given.mp hsetting
  refine ⟨_, hf, rfl, fun t ht s hs => ?_⟩
  show (codec.read _).map _ = _
  rw [hcodec ht hs]
  rfl

end Setting

end Json

open Json

/-! ## Options -/

/-- Run options that are given in part. -/
structure ParseOptions.Given where
  start : Option UInt64 := none
  skip : Option (Option String) := none
  follow : Option (Option String) := none

namespace ParseOptions.Given

/-- The members that are given. -/
def settings (given : Given) : List (Setting ParseOptions) :=
  Setting.given "start" .word (fun a r => { r with start := a }) given.start
    ++ Setting.given "skip" .text (fun a r => { r with skip := a }) given.skip
    ++ Setting.given "follow" .text (fun a r => { r with follow := a }) given.follow

/-- What is given, and the rest as it was. -/
def override (given : Given) (r : ParseOptions) : ParseOptions where
  start := given.start.getD r.start
  skip := given.skip.getD r.skip
  follow := given.follow.getD r.follow

end ParseOptions.Given

theorem ParseOptions.record_regular : ParseOptions.record.Regular where
  names := record_faithful.names
  fields := by
    simp only [record, List.forall_mem_cons]
    exact ⟨.of word_regular .., .of optionalText_regular .., .of optionalText_regular .., by simp⟩

theorem ParseOptions.record_takesParts :
    ParseOptions.record.TakesParts Given.settings Given.override := by
  refine .of record_regular (fun given => ?_) (fun given => ?_) (fun given => ?_) fun given x => ?_
  · simp only [Given.settings, List.forall_mem_append]
    exact ⟨⟨Setting.takes_given word_readsAs (.head _),
      Setting.takes_given optionalText_readsAs (.tail _ (.head _))⟩,
      Setting.takes_given optionalText_readsAs (.tail _ (.tail _ (.head _)))⟩
  · simp only [Given.settings, List.map_append]
    exact .sublist (((Setting.names_given ..).append (Setting.names_given ..)).append
      (Setting.names_given ..)) (by decide)
  · simp only [Given.settings, List.mem_append, Setting.mem_given]
    rintro a ((⟨_, -, rfl⟩ | ⟨_, -, rfl⟩) | ⟨_, -, rfl⟩) b
      ((⟨_, -, rfl⟩ | ⟨_, -, rfl⟩) | ⟨_, -, rfl⟩) hne x <;> first | rfl | exact absurd rfl hne
  · obtain ⟨_ | _, _ | _, _ | _⟩ := given <;> rfl

/-- A format of integer literals that is given in part. -/
structure NumberFormat.Given where
  binary : Option Bool := none
  octal : Option Bool := none

namespace NumberFormat.Given

/-- The members that are given. -/
def settings (given : Given) : List (Setting NumberFormat) :=
  Setting.given "binary" .flag (fun a r => { r with binary := a }) given.binary
    ++ Setting.given "octal" .flag (fun a r => { r with octal := a }) given.octal

/-- What is given, and the rest as it was. -/
def override (given : Given) (r : NumberFormat) : NumberFormat where
  binary := given.binary.getD r.binary
  octal := given.octal.getD r.octal

end NumberFormat.Given

theorem NumberFormat.record_regular : NumberFormat.record.Regular where
  names := record_faithful.names
  fields := by
    simp only [record, List.forall_mem_cons]
    exact ⟨.of flag_regular .., .of flag_regular .., by simp⟩

theorem NumberFormat.record_takesParts :
    NumberFormat.record.TakesParts Given.settings Given.override := by
  refine .of record_regular (fun given => ?_) (fun given => ?_) (fun given => ?_) fun given x => ?_
  · simp only [Given.settings, List.forall_mem_append]
    exact ⟨Setting.takes_given flag_readsAs (.head _),
      Setting.takes_given flag_readsAs (.tail _ (.head _))⟩
  · simp only [Given.settings, List.map_append]
    exact .sublist ((Setting.names_given ..).append (Setting.names_given ..)) (by decide)
  · simp only [Given.settings, List.mem_append, Setting.mem_given]
    rintro a (⟨_, -, rfl⟩ | ⟨_, -, rfl⟩) b (⟨_, -, rfl⟩ | ⟨_, -, rfl⟩) hne x <;>
      first | rfl | exact absurd rfl hne
  · obtain ⟨_ | _, _ | _⟩ := given <;> rfl

/-- A format of string literals that is given in part. -/
structure StringFormat.Given where
  includeNewline : Option Bool := none
  octal : Option Bool := none
  hex2 : Option Bool := none
  unicode4 : Option Bool := none
  hexVar : Option Bool := none
  jsCodePoint : Option Bool := none
  csharpCodePoint : Option Bool := none

namespace StringFormat.Given

/-- The members that are given. -/
def settings (given : Given) : List (Setting StringFormat) :=
  Setting.given "include_newline" .flag (fun a r => { r with includeNewline := a })
      given.includeNewline
    ++ Setting.given "octal" .flag (fun a r => { r with octal := a }) given.octal
    ++ Setting.given "hex2" .flag (fun a r => { r with hex2 := a }) given.hex2
    ++ Setting.given "unicode4" .flag (fun a r => { r with unicode4 := a }) given.unicode4
    ++ Setting.given "hex_var" .flag (fun a r => { r with hexVar := a }) given.hexVar
    ++ Setting.given "js_code_point" .flag (fun a r => { r with jsCodePoint := a })
      given.jsCodePoint
    ++ Setting.given "csharp_code_point" .flag (fun a r => { r with csharpCodePoint := a })
      given.csharpCodePoint

/-- What is given, and the rest as it was. -/
def override (given : Given) (r : StringFormat) : StringFormat where
  includeNewline := given.includeNewline.getD r.includeNewline
  octal := given.octal.getD r.octal
  hex2 := given.hex2.getD r.hex2
  unicode4 := given.unicode4.getD r.unicode4
  hexVar := given.hexVar.getD r.hexVar
  jsCodePoint := given.jsCodePoint.getD r.jsCodePoint
  csharpCodePoint := given.csharpCodePoint.getD r.csharpCodePoint

end StringFormat.Given

theorem StringFormat.record_regular : StringFormat.record.Regular where
  names := record_faithful.names
  fields := by
    simp only [record, List.forall_mem_cons]
    exact ⟨.of flag_regular .., .of flag_regular .., .of flag_regular .., .of flag_regular ..,
      .of flag_regular .., .of flag_regular .., .of flag_regular .., by simp⟩

theorem StringFormat.record_takesParts :
    StringFormat.record.TakesParts Given.settings Given.override := by
  refine .of record_regular (fun given => ?_) (fun given => ?_) (fun given => ?_) fun given x => ?_
  · have htakes {name : String} {get : StringFormat → Bool}
        {set : Bool → StringFormat → StringFormat} {a? : Option Bool} (i : Nat)
        (hi : record.fields[i]? = some (.of name flag get set)) :
        ∀ setting ∈ Setting.given name .flag set a?, record.Takes setting :=
      Setting.takes_given flag_readsAs (List.mem_of_getElem? hi)
    simp only [Given.settings, List.forall_mem_append]
    exact ⟨⟨⟨⟨⟨⟨htakes 0 rfl, htakes 1 rfl⟩, htakes 2 rfl⟩, htakes 3 rfl⟩, htakes 4 rfl⟩,
      htakes 5 rfl⟩, htakes 6 rfl⟩
  · simp only [Given.settings, List.map_append]
    exact .sublist (((((((Setting.names_given ..).append (Setting.names_given ..)).append
      (Setting.names_given ..)).append (Setting.names_given ..)).append
      (Setting.names_given ..)).append (Setting.names_given ..)).append
      (Setting.names_given ..)) (by decide)
  · simp only [Given.settings, List.mem_append, Setting.mem_given, or_assoc]
    rintro a (⟨_, -, rfl⟩ | ⟨_, -, rfl⟩ | ⟨_, -, rfl⟩ | ⟨_, -, rfl⟩ | ⟨_, -, rfl⟩ | ⟨_, -, rfl⟩
      | ⟨_, -, rfl⟩) b (⟨_, -, rfl⟩ | ⟨_, -, rfl⟩ | ⟨_, -, rfl⟩ | ⟨_, -, rfl⟩ | ⟨_, -, rfl⟩
      | ⟨_, -, rfl⟩ | ⟨_, -, rfl⟩) hne x <;>
      first | rfl | exact absurd rfl hne
  · obtain ⟨_ | _, _ | _, _ | _, _ | _, _ | _, _ | _, _ | _⟩ := given <;> rfl

/-- **Partial options are the default and what is given.** Run options and both formats are
read from the text of any object that gives some of their members, each once and with a
value of its type, whatever the order is, whatever other members stand between them with
names that spell something and values that are well-formed, and whatever blanks and escapes
are used: the result is the default with exactly the given members put in its place. An
object that has a member of them twice is refused whatever its values are, and so is an
object that has a name which spells nothing. -/
theorem partial_options :
    ParseOptions.record.TakesParts ParseOptions.Given.settings ParseOptions.Given.override
    ∧ NumberFormat.record.TakesParts NumberFormat.Given.settings NumberFormat.Given.override
    ∧ StringFormat.record.TakesParts StringFormat.Given.settings StringFormat.Given.override :=
  ⟨ParseOptions.record_takesParts, NumberFormat.record_takesParts, StringFormat.record_takesParts⟩

/-- One of two members is given, with an escape in its name and behind one that nobody asked
for: the other keeps its default, which is true. -/
theorem partial_options_octal :
    NumberFormat.record.ofText " \x7b\"x\" : \"\\ud800\", \"octa\\u006c\":false\x7d\n"
      = .ok { binary := true, octal := false } := by
  let unknown : Member := ⟨['x'], "\"\\ud800\"".toList⟩
  let known : Member := ⟨['o', 'c', 't', 'a', '\\', 'u', '0', '0', '6', 'c'], "false".toList⟩
  have hnone : Blanks [] := by simp [Blanks]
  have hspace : Blanks [' '] := by simp [Blanks]
  have hline : Blanks ['\n'] := by simp [Blanks]
  have hdocument : Document [unknown, known]
      " \x7b\"x\" : \"\\ud800\", \"octa\\u006c\":false\x7d\n".toList :=
    .mk hspace (.elements hnone (.more (@Member.Stands.parts unknown [' '] [' '] hspace hspace)
      hnone hspace (.last (@Member.Stands.parts known [] [] hnone hnone) hnone))) hline
  have hhalf : Hex4 0xD800 ['d', '8', '0', '0'] :=
    @Hex4.digits 13 8 0 0 _ _ _ _ (.inl rfl) (.inl rfl) (.inl rfl) (.inl rfl)
  have hletter : Hex4 'l'.toNat ['0', '0', '6', 'c'] :=
    @Hex4.digits 0 0 6 12 _ _ _ _ (.inl rfl) (.inl rfl) (.inl rfl) (.inl rfl)
  have hgraphic : ∀ c ∈ ['x', 'o', 'c', 't', 'a'], Graphic c := by simp [Graphic]
  have hname : Spells known.name "octal".toList :=
    .itself (hgraphic _ (by simp)) (.itself (hgraphic _ (by simp)) (.itself (hgraphic _ (by simp))
      (.itself (hgraphic _ (by simp)) (.number hletter .nil))))
  have hgives : NumberFormat.record.Gives [unknown, known]
      [⟨"octal", .flag false, fun r => { r with octal := false }⟩] :=
    @Record.Gives.unknown _ _ unknown "x" _ _ (.itself (hgraphic _ (by simp)) .nil) (by decide)
      (.text (.number hhalf .nil)) (.known hname .false .nil)
  exact @Record.TakesParts.overridden _ _ _ _ _ partial_options.2.1 { octal := some false } _ _ _
    hdocument hgives (.refl _)

/-- **Half of a character is no name.** A well-formed object with one member that nobody
asked for is refused, where the default might be expected. -/
theorem partial_options_half :
    let m : Member := ⟨"\\ud800".toList, ['0']⟩
    Document [m] "\x7b\"\\ud800\":0\x7d".toList ∧ Quotable m.name ∧ WellFormed m.value
    ∧ (∀ f ∈ NumberFormat.record.fields, ¬Spells m.name f.name.toList)
    ∧ NumberFormat.record.ofText "\x7b\"\\ud800\":0\x7d" ≠ .ok NumberFormat.record.default := by
  intro m
  have hnone : Blanks [] := by simp [Blanks]
  have hdocument : Document [m] "\x7b\"\\ud800\":0\x7d".toList :=
    .mk hnone (.elements hnone (.last (@Member.Stands.parts m [] [] hnone hnone) hnone)) hnone
  have hhalf : Hex4 0xD800 ['d', '8', '0', '0'] :=
    @Hex4.digits 13 8 0 0 _ _ _ _ (.inl rfl) (.inl rfl) (.inl rfl) (.inl rfl)
  have hquotable : Quotable m.name := .number hhalf .nil
  have hvalue : WellFormed m.value := by
    have hdigits : Digits ['0'] := ⟨by simp, by simp⟩
    exact .number (@Number.parts [] ['0'] [] [] (.inl rfl) hdigits (by simp) (.inl rfl) (.inl rfl))
  have hno : ∀ name, ¬Spells m.name name := by
    intro name hname
    have hread : readQuoted [] (Source.ofText m.name ++ [some '"']) = none :=
      readQuoted_hex (a := 'd') (b := '8') (c := '0') (d := '0') (n := 0xD800) rfl
    rw [hname.readQuoted] at hread
    exact absurd hread (Option.some_ne_none _)
  refine ⟨hdocument, hquotable, hvalue, fun f _ => hno _, fun hread => ?_⟩
  obtain ⟨reason, herror⟩ := Record.ofText_unnamed NumberFormat.record_regular hdocument
    (by simpa using hquotable) (by simpa using hvalue) List.mem_cons_self hno
  exact absurd (hread.symm.trans herror) (by simp)

end Descent
