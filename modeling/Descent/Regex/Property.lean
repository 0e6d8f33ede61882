import Descent.Regex.Syntax
import Descent.Unicode.Case
import Descent.Unicode.Script

/-!
# Properties of characters in patterns

What the names between the braces of a property mean: general categories and
their groups, scripts, and some properties with a name of their own. Names are
compared without blanks, hyphens and low lines, in small letters, and without a
leading `is`.

**What is left out.** Patterns may also ask for the properties below. They are refused
here, as unknown names are.

* With a value: `Script_Extensions` (`scx`), `Age`, `Grapheme_Cluster_Break` (`gcb`),
  `Word_Break` (`wb`) and `Sentence_Break` (`sb`).
* Of identifiers and syntax: `ID_Start`, `ID_Continue`, `XID_Start`, `XID_Continue`,
  `Pattern_Syntax`, `Pattern_White_Space`, `Hex_Digit`, `Math`.
* Of emoji: `Emoji`, `Emoji_Component`, `Emoji_Modifier`, `Emoji_Modifier_Base`,
  `Emoji_Presentation`, `Extended_Pictographic`, `Regional_Indicator`.
* Of punctuation and marks: `Dash`, `Quotation_Mark`, `Terminal_Punctuation`,
  `Sentence_Terminal`, `Diacritic`, `Extender`, `Grapheme_Base`, `Grapheme_Link`,
  `Prepended_Concatenation_Mark`, `Soft_Dotted`, `Variation_Selector`.
* Of case: `Changes_When_Casefolded`, `Changes_When_Casemapped`,
  `Changes_When_Lowercased`, `Changes_When_Titlecased`, `Changes_When_Uppercased`.
* Of ideographs: `Ideographic`, `Unified_Ideograph`, `Radical`, `IDS_Binary_Operator`,
  `IDS_Trinary_Operator`.
* Others: `Bidi_Control`, `Bidi_Mirrored`, `Default_Ignorable_Code_Point`, `Deprecated`,
  `Logical_Order_Exception`, `Noncharacter_Code_Point`.
-/

namespace Descent

namespace Regex

open Unicode

/-- The form in which names of properties are compared. -/
def propertyKey (name : List Char) : String :=
  let (led, name) := match name with
    | a :: b :: rest =>
      if a.toLower = 'i' && b.toLower = 's' then (true, rest) else (false, name)
    | _ => (false, name)
  let key := (name.filter fun c => c.toNat < 128 && c != ' ' && c != '_' && c != '-').map
    Char.toLower
  if led && key = ['c'] then "isc" else String.ofList key

/-- The characters of a general category or a group of them. -/
def categorySet? : String → Option CharSet
  | "any" => some CharSet.all
  | "ascii" => some ⟨[(0, 127)]⟩
  | "assigned" => some (Category.charSet (· == .cn)).complement
  | "lu" | "uppercaseletter" => only .lu
  | "ll" | "lowercaseletter" => only .ll
  | "lt" | "titlecaseletter" => only .lt
  | "lm" | "modifierletter" => only .lm
  | "lo" | "otherletter" => only .lo
  | "mn" | "nonspacingmark" => only .mn
  | "mc" | "spacingmark" => only .mc
  | "me" | "enclosingmark" => only .me
  | "nd" | "decimalnumber" | "digit" => only .nd
  | "nl" | "letternumber" => only .nl
  | "no" | "othernumber" => only .no
  | "pc" | "connectorpunctuation" => only .pc
  | "pd" | "dashpunctuation" => only .pd
  | "ps" | "openpunctuation" => only .ps
  | "pe" | "closepunctuation" => only .pe
  | "pi" | "initialpunctuation" => only .pi
  | "pf" | "finalpunctuation" => only .pf
  | "po" | "otherpunctuation" => only .po
  | "sm" | "mathsymbol" => only .sm
  | "sc" | "currencysymbol" => only .sc
  | "sk" | "modifiersymbol" => only .sk
  | "so" | "othersymbol" => only .so
  | "zs" | "spaceseparator" => only .zs
  | "zl" | "lineseparator" => only .zl
  | "zp" | "paragraphseparator" => only .zp
  | "cc" | "control" | "cntrl" => only .cc
  | "cf" | "format" => only .cf
  | "co" | "privateuse" => only .co
  | "cn" | "unassigned" => only .cn
  | "l" | "letter" => some (Category.charSet Category.isLetter)
  | "lc" | "casedletter" => some (Category.charSet Category.isCasedLetter)
  | "m" | "mark" | "combiningmark" => some (Category.charSet Category.isMark)
  | "n" | "number" => some (Category.charSet Category.isNumber)
  | "p" | "punctuation" | "punct" => some (Category.charSet Category.isPunctuation)
  | "s" | "symbol" => some (Category.charSet Category.isSymbol)
  | "z" | "separator" => some (Category.charSet Category.isSeparator)
  | "c" | "other" => some (Category.charSet Category.isOther)
  | _ => none
where
  only (category : Category) : Option CharSet := some (Category.charSet (· == category))

/-- The characters of a script. -/
def scriptSet? (key : String) : Option CharSet := (Script.code? key).map Script.charSet

/-- The characters of a property with a name of its own. -/
def ownPropertySet? : String → Option CharSet
  | "alphabetic" | "alpha" => some alphabetic
  | "lowercase" | "lower" => some lowercase
  | "uppercase" | "upper" => some uppercase
  | "whitespace" | "wspace" | "space" => some whiteSpace
  | "cased" => some cased
  | "caseignorable" | "ci" => some caseIgnorable
  | "graphemeextend" | "grext" => some graphemeExtend
  | "joincontrol" | "joinc" => some ⟨[(0x200C, 0x200D)]⟩
  | "asciihexdigit" | "ahex" => some ⟨[(0x30, 0x39), (0x41, 0x46), (0x61, 0x66)]⟩
  | _ => none

/-- **The characters that a property asks for.** -/
def PropertyQuery.charSet? : PropertyQuery → Option CharSet
  | .named name =>
    let key := propertyKey name
    ((ownPropertySet? key).or (categorySet? key)).or (scriptSet? key)
  | .valued name value =>
    match propertyKey name with
    | "gc" | "generalcategory" => categorySet? (propertyKey value)
    | "sc" | "script" => scriptSet? (propertyKey value)
    | _ => none

end Regex

end Descent
