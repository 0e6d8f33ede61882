import Descent.CharSet
import Descent.Unicode.Table

/-!
# General categories

Every code point has one general category of the Unicode standard. Those of
ASCII are told by hand, which keeps them easy to compute with; the others are
read from a table of runs that begins at code point 128.

The properties that the standard derives from the categories are derived here
too, each from the categories and the few characters that it adds to them.
-/

namespace Descent

namespace Unicode

/-- A general category, under the two letters of its short name. -/
inductive Category where
  | lu | ll | lt | lm | lo | mn | mc | me | nd | nl
  | no | pc | pd | ps | pe | pi | pf | po | sm | sc
  | sk | so | zs | zl | zp | cc | cf | cs | co | cn
  deriving Repr, DecidableEq

namespace Category

/-- The category of a short name; unassigned for any other text. -/
def ofCode : String → Category
  | "Lu" => .lu
  | "Ll" => .ll
  | "Lt" => .lt
  | "Lm" => .lm
  | "Lo" => .lo
  | "Mn" => .mn
  | "Mc" => .mc
  | "Me" => .me
  | "Nd" => .nd
  | "Nl" => .nl
  | "No" => .no
  | "Pc" => .pc
  | "Pd" => .pd
  | "Ps" => .ps
  | "Pe" => .pe
  | "Pi" => .pi
  | "Pf" => .pf
  | "Po" => .po
  | "Sm" => .sm
  | "Sc" => .sc
  | "Sk" => .sk
  | "So" => .so
  | "Zs" => .zs
  | "Zl" => .zl
  | "Zp" => .zp
  | "Cc" => .cc
  | "Cf" => .cf
  | "Cs" => .cs
  | "Co" => .co
  | _ => .cn

/-- The categories from code point 128 on. -/
def table : Array (Nat × Category) :=
  (runTable 128 runs).map fun entry => (entry.1, ofCode entry.2)
where
  runs : List String := [
    "32Cc1Zs1Po4Sc1So1Po1Sk1So1Lo1Pi1Sm1Cf1So1Sk1So1Sm2No1Sk1Ll2Po1Sk1No1Lo1Pf3No1Po23Lu1Sm7Lu",
    "24Ll1Sm8Ll1Lu1Ll1Lu1Ll1Lu1Ll1Lu1Ll1Lu1Ll1Lu1Ll1Lu1Ll1Lu1Ll1Lu1Ll1Lu1Ll1Lu1Ll1Lu1Ll1Lu1Ll1Lu",
    "1Ll1Lu1Ll1Lu1Ll1Lu1Ll1Lu1Ll1Lu1Ll1Lu1Ll1Lu1Ll1Lu1Ll1Lu1Ll1Lu1Ll1Lu1Ll1Lu1Ll1Lu1Ll1Lu2Ll1Lu",
    "1Ll1Lu1Ll1Lu1Ll1Lu1Ll1Lu1Ll1Lu1Ll1Lu1Ll1Lu2Ll1Lu1Ll1Lu1Ll1Lu1Ll1Lu1Ll1Lu1Ll1Lu1Ll1Lu1Ll1Lu",
    "1Ll1Lu1Ll1Lu1Ll1Lu1Ll1Lu1Ll1Lu1Ll1Lu1Ll1Lu1Ll1Lu1Ll1Lu1Ll1Lu1Ll1Lu1Ll1Lu1Ll1Lu1Ll1Lu1Ll1Lu",
    "1Ll2Lu1Ll1Lu1Ll1Lu3Ll2Lu1Ll1Lu1Ll2Lu1Ll3Lu2Ll4Lu1Ll2Lu1Ll3Lu3Ll2Lu1Ll2Lu1Ll1Lu1Ll1Lu1Ll2Lu",
    "1Ll1Lu2Ll1Lu1Ll2Lu1Ll3Lu1Ll1Lu1Ll2Lu2Ll1Lo1Lu3Ll4Lo1Lu1Lt1Ll1Lu1Lt1Ll1Lu1Lt1Ll1Lu1Ll1Lu1Ll",
    "1Lu1Ll1Lu1Ll1Lu1Ll1Lu1Ll1Lu1Ll1Lu2Ll1Lu1Ll1Lu1Ll1Lu1Ll1Lu1Ll1Lu1Ll1Lu1Ll1Lu1Ll1Lu1Ll1Lu2Ll",
    "1Lu1Lt1Ll1Lu1Ll3Lu1Ll1Lu1Ll1Lu1Ll1Lu1Ll1Lu1Ll1Lu1Ll1Lu1Ll1Lu1Ll1Lu1Ll1Lu1Ll1Lu1Ll1Lu1Ll1Lu",
    "1Ll1Lu1Ll1Lu1Ll1Lu1Ll1Lu1Ll1Lu1Ll1Lu1Ll1Lu1Ll1Lu1Ll1Lu1Ll1Lu1Ll1Lu1Ll1Lu1Ll1Lu1Ll1Lu1Ll1Lu",
    "1Ll1Lu1Ll1Lu7Ll2Lu1Ll2Lu2Ll1Lu1Ll4Lu1Ll1Lu1Ll1Lu1Ll1Lu1Ll1Lu69Ll1Lo27Ll18Lm4Sk12Lm14Sk5Lm7Sk",
    "1Lm1Sk1Lm17Sk112Mn1Lu1Ll1Lu1Ll1Lm1Sk1Lu1Ll2Cn1Lm3Ll1Po1Lu4Cn2Sk1Lu1Po3Lu1Cn1Lu1Cn2Lu1Ll17Lu",
    "1Cn9Lu35Ll1Lu2Ll3Lu3Ll1Lu1Ll1Lu1Ll1Lu1Ll1Lu1Ll1Lu1Ll1Lu1Ll1Lu1Ll1Lu1Ll1Lu1Ll1Lu1Ll1Lu1Ll1Lu",
    "5Ll1Lu1Ll1Sm1Lu1Ll2Lu2Ll51Lu48Ll1Lu1Ll1Lu1Ll1Lu1Ll1Lu1Ll1Lu1Ll1Lu1Ll1Lu1Ll1Lu1Ll1Lu1Ll1Lu1Ll",
    "1Lu1Ll1Lu1Ll1Lu1Ll1Lu1Ll1Lu1Ll1Lu1Ll1Lu1Ll1So5Mn2Me1Lu1Ll1Lu1Ll1Lu1Ll1Lu1Ll1Lu1Ll1Lu1Ll1Lu",
    "1Ll1Lu1Ll1Lu1Ll1Lu1Ll1Lu1Ll1Lu1Ll1Lu1Ll1Lu1Ll1Lu1Ll1Lu1Ll1Lu1Ll1Lu1Ll1Lu1Ll1Lu1Ll1Lu1Ll1Lu",
    "1Ll1Lu1Ll1Lu1Ll1Lu1Ll1Lu1Ll1Lu1Ll2Lu1Ll1Lu1Ll1Lu1Ll1Lu1Ll1Lu1Ll1Lu1Ll1Lu2Ll1Lu1Ll1Lu1Ll1Lu",
    "1Ll1Lu1Ll1Lu1Ll1Lu1Ll1Lu1Ll1Lu1Ll1Lu1Ll1Lu1Ll1Lu1Ll1Lu1Ll1Lu1Ll1Lu1Ll1Lu1Ll1Lu1Ll1Lu1Ll1Lu",
    "1Ll1Lu1Ll1Lu1Ll1Lu1Ll1Lu1Ll1Lu1Ll1Lu1Ll1Lu1Ll1Lu1Ll1Lu1Ll1Lu1Ll1Lu1Ll1Lu1Ll1Lu1Ll1Lu1Ll1Lu",
    "1Ll1Lu1Ll1Lu1Ll1Lu1Ll1Lu1Ll1Lu1Ll1Lu1Ll1Lu1Ll1Lu1Ll1Lu1Ll1Lu1Ll1Lu1Ll1Lu1Ll1Lu1Ll1Lu1Ll1Lu",
    "1Ll1Cn38Lu2Cn1Lm6Po41Ll1Po1Pd2Cn2So1Sc1Cn45Mn1Pd1Mn1Po2Mn1Po2Mn1Po1Mn8Cn27Lo4Cn4Lo2Po11Cn6Cf",
    "3Sm2Po1Sc2Po2So11Mn1Po1Cf3Po32Lo1Lm10Lo21Mn10Nd4Po2Lo1Mn99Lo1Po1Lo7Mn1Cf1So6Mn2Lm2Mn1So4Mn",
    "2Lo10Nd3Lo2So1Lo14Po1Cn1Cf1Lo1Mn30Lo27Mn2Cn89Lo11Mn1Lo14Cn10Nd33Lo9Mn2Lm1So3Po1Lm2Cn1Mn2Sc",
    "22Lo4Mn1Lm9Mn1Lm3Mn1Lm5Mn2Cn15Po1Cn25Lo3Mn2Cn1Po1Cn11Lo5Cn24Lo1Sk6Lo1Cn2Cf5Cn9Mn41Lo1Lm24Mn",
    "1Cf32Mn1Mc54Lo1Mn1Mc1Mn1Lo3Mc8Mn4Mc1Mn2Mc1Lo7Mn10Lo2Mn2Po10Nd1Po1Lm15Lo1Mn2Mc1Cn8Lo2Cn2Lo2Cn",
    "22Lo1Cn7Lo1Cn1Lo3Cn4Lo2Cn1Mn1Lo3Mc4Mn2Cn2Mc2Cn2Mc1Mn1Lo8Cn1Mc4Cn2Lo1Cn3Lo2Mn2Cn10Nd2Lo2Sc6No",
    "1So1Sc1Lo1Po1Mn2Cn2Mn1Mc1Cn6Lo4Cn2Lo2Cn22Lo1Cn7Lo1Cn2Lo1Cn2Lo1Cn2Lo2Cn1Mn1Cn3Mc2Mn4Cn2Mn2Cn",
    "3Mn3Cn1Mn7Cn4Lo1Cn1Lo7Cn10Nd2Mn3Lo1Mn1Po10Cn2Mn1Mc1Cn9Lo1Cn3Lo1Cn22Lo1Cn7Lo1Cn2Lo1Cn5Lo2Cn",
    "1Mn1Lo3Mc5Mn1Cn2Mn1Mc1Cn2Mc1Mn2Cn1Lo15Cn2Lo2Mn2Cn10Nd1Po1Sc7Cn1Lo6Mn1Cn1Mn2Mc1Cn8Lo2Cn2Lo2Cn",
    "22Lo1Cn7Lo1Cn2Lo1Cn5Lo2Cn1Mn1Lo1Mc1Mn1Mc4Mn2Cn2Mc2Cn2Mc1Mn7Cn2Mn1Mc4Cn2Lo1Cn3Lo2Mn2Cn10Nd1So",
    "1Lo6No10Cn1Mn1Lo1Cn6Lo3Cn3Lo1Cn4Lo3Cn2Lo1Cn1Lo1Cn2Lo3Cn2Lo3Cn3Lo3Cn12Lo4Cn2Mc1Mn2Mc3Cn3Mc1Cn",
    "3Mc1Mn2Cn1Lo6Cn1Mc14Cn10Nd3No6So1Sc1So5Cn1Mn3Mc1Mn8Lo1Cn3Lo1Cn23Lo1Cn16Lo2Cn1Mn1Lo3Mn4Mc1Cn",
    "3Mn1Cn4Mn7Cn2Mn1Cn3Lo2Cn1Lo2Cn2Lo2Mn2Cn10Nd7Cn1Po7No1So1Lo1Mn2Mc1Po8Lo1Cn3Lo1Cn23Lo1Cn10Lo",
    "1Cn5Lo2Cn1Mn1Lo1Mc1Mn5Mc1Cn1Mn2Mc1Cn2Mc2Mn7Cn2Mc6Cn2Lo1Cn2Lo2Mn2Cn10Nd1Cn2Lo1Mc12Cn2Mn2Mc9Lo",
    "1Cn3Lo1Cn41Lo2Mn1Lo3Mc4Mn1Cn3Mc1Cn3Mc1Mn1Lo1So4Cn3Lo1Mc7No3Lo2Mn2Cn10Nd9No1So6Lo1Cn1Mn2Mc1Cn",
    "18Lo3Cn24Lo1Cn9Lo1Cn1Lo2Cn7Lo3Cn1Mn4Cn3Mc3Mn1Cn1Mn1Cn8Mc6Cn10Nd2Cn2Mc1Po12Cn48Lo1Mn2Lo7Mn4Cn",
    "1Sc6Lo1Lm8Mn1Po10Nd2Po37Cn2Lo1Cn1Lo1Cn5Lo1Cn24Lo1Cn1Lo1Cn10Lo1Mn2Lo9Mn1Lo2Cn5Lo1Cn1Lm1Cn7Mn",
    "1Cn10Nd2Cn4Lo32Cn1Lo3So15Po1So1Po3So2Mn6So10Nd10No1So1Mn1So1Mn1So1Mn1Ps1Pe1Ps1Pe2Mc8Lo1Cn",
    "36Lo4Cn14Mn1Mc5Mn1Po2Mn5Lo11Mn1Cn36Mn1Cn8So1Mn6So1Cn2So5Po4So2Po37Cn43Lo2Mc4Mn1Mc6Mn1Mc2Mn",
    "2Mc2Mn1Lo10Nd6Po6Lo2Mc2Mn4Lo3Mn1Lo3Mc2Lo7Mc3Lo4Mn13Lo1Mn2Mc2Mn6Mc1Mn1Lo1Mc10Nd3Mc1Mn2So38Lu",
    "1Cn1Lu5Cn1Lu2Cn43Ll1Po1Lm3Ll329Lo1Cn4Lo2Cn7Lo1Cn1Lo1Cn4Lo2Cn41Lo1Cn4Lo2Cn33Lo1Cn4Lo2Cn7Lo1Cn",
    "1Lo1Cn4Lo2Cn15Lo1Cn57Lo1Cn4Lo2Cn67Lo2Cn3Mn9Po20No3Cn16Lo10So6Cn86Lu2Cn6Ll2Cn1Pd620Lo1So1Po",
    "17Lo1Zs26Lo1Ps1Pe3Cn75Lo3Po3Nl8Lo7Cn18Lo3Mn1Mc9Cn19Lo2Mn1Mc2Po9Cn18Lo2Mn12Cn13Lo1Cn3Lo1Cn2Mn",
    "12Cn52Lo2Mn1Mc7Mn8Mc1Mn2Mc11Mn3Po1Lm3Po1Sc1Lo1Mn2Cn10Nd6Cn10No6Cn6Po1Pd4Po3Mn1Cf1Mn10Nd6Cn",
    "35Lo1Lm53Lo7Cn5Lo2Mn34Lo1Mn1Lo5Cn70Lo10Cn31Lo1Cn3Mn4Mc2Mn3Mc4Cn2Mc1Mn6Mc3Mn4Cn1So3Cn2Po10Nd",
    "30Lo2Cn5Lo11Cn44Lo4Cn26Lo6Cn10Nd1No3Cn34So23Lo2Mn2Mc1Mn2Cn2Po53Lo1Mc1Mn1Mc7Mn1Cn1Mn1Mc1Mn2Mc",
    "8Mn6Mc10Mn2Cn1Mn10Nd6Cn10Nd6Cn7Po1Lm6Po2Cn14Mn1Me16Mn49Cn4Mn1Mc47Lo1Mn1Mc5Mn1Mc1Mn5Mc1Mn2Mc",
    "8Lo1Cn2Po10Nd7Po10So9Mn9So3Po2Mn1Mc30Lo1Mc4Mn2Mc2Mn1Mc3Mn2Lo10Nd44Lo1Mn1Mc2Mn3Mc1Mn1Mc3Mn2Mc",
    "8Cn4Po36Lo8Mc8Mn2Mc2Mn3Cn5Po10Nd3Cn3Lo10Nd30Lo6Lm2Po9Ll1Lu1Ll5Cn43Lu2Cn3Lu8Po8Cn3Mn1Po13Mn",
    "1Mc7Mn4Lo1Mn6Lo1Mn2Lo1Mc2Mn1Lo5Cn44Ll63Lm13Ll1Lm34Ll37Lm64Mn1Lu1Ll1Lu1Ll1Lu1Ll1Lu1Ll1Lu1Ll",
    "1Lu1Ll1Lu1Ll1Lu1Ll1Lu1Ll1Lu1Ll1Lu1Ll1Lu1Ll1Lu1Ll1Lu1Ll1Lu1Ll1Lu1Ll1Lu1Ll1Lu1Ll1Lu1Ll1Lu1Ll",
    "1Lu1Ll1Lu1Ll1Lu1Ll1Lu1Ll1Lu1Ll1Lu1Ll1Lu1Ll1Lu1Ll1Lu1Ll1Lu1Ll1Lu1Ll1Lu1Ll1Lu1Ll1Lu1Ll1Lu1Ll",
    "1Lu1Ll1Lu1Ll1Lu1Ll1Lu1Ll1Lu1Ll1Lu1Ll1Lu1Ll1Lu1Ll1Lu1Ll1Lu1Ll1Lu1Ll1Lu1Ll1Lu1Ll1Lu1Ll1Lu1Ll",
    "1Lu1Ll1Lu1Ll1Lu1Ll1Lu1Ll1Lu1Ll1Lu1Ll1Lu1Ll1Lu1Ll1Lu1Ll1Lu1Ll1Lu1Ll1Lu1Ll1Lu1Ll1Lu1Ll1Lu1Ll",
    "1Lu1Ll1Lu1Ll1Lu1Ll1Lu1Ll1Lu1Ll1Lu1Ll1Lu1Ll1Lu1Ll1Lu1Ll1Lu9Ll1Lu1Ll1Lu1Ll1Lu1Ll1Lu1Ll1Lu1Ll",
    "1Lu1Ll1Lu1Ll1Lu1Ll1Lu1Ll1Lu1Ll1Lu1Ll1Lu1Ll1Lu1Ll1Lu1Ll1Lu1Ll1Lu1Ll1Lu1Ll1Lu1Ll1Lu1Ll1Lu1Ll",
    "1Lu1Ll1Lu1Ll1Lu1Ll1Lu1Ll1Lu1Ll1Lu1Ll1Lu1Ll1Lu1Ll1Lu1Ll1Lu1Ll1Lu1Ll1Lu1Ll1Lu1Ll1Lu1Ll1Lu1Ll",
    "1Lu1Ll1Lu1Ll1Lu1Ll1Lu1Ll1Lu1Ll1Lu1Ll1Lu1Ll1Lu1Ll1Lu1Ll1Lu1Ll1Lu1Ll1Lu1Ll1Lu1Ll1Lu9Ll8Lu6Ll",
    "2Cn6Lu2Cn8Ll8Lu8Ll8Lu6Ll2Cn6Lu2Cn8Ll1Cn1Lu1Cn1Lu1Cn1Lu1Cn1Lu8Ll8Lu14Ll2Cn8Ll8Lt8Ll8Lt8Ll8Lt",
    "5Ll1Cn2Ll4Lu1Lt1Sk1Ll3Sk3Ll1Cn2Ll4Lu1Lt3Sk4Ll2Cn2Ll4Lu1Cn3Sk8Ll5Lu3Sk2Cn3Ll1Cn2Ll4Lu1Lt2Sk",
    "1Cn11Zs5Cf6Pd2Po1Pi1Pf1Ps2Pi1Pf1Ps1Pi8Po1Zl1Zp5Cf1Zs9Po1Pi1Pf4Po2Pc3Po1Sm1Ps1Pe11Po1Sm1Po1Pc",
    "10Po1Zs5Cf1Cn10Cf1No1Lm2Cn6No3Sm1Ps1Pe1Lm10No3Sm1Ps1Pe1Cn13Lm3Cn33Sc15Cn13Mn4Me1Mn3Me12Mn",
    "15Cn2So1Lu4So1Lu2So1Ll3Lu2Ll3Lu1Ll1So1Lu2So1Sm5Lu6So1Lu1So1Lu1So1Lu1So4Lu1So1Ll4Lu1Ll4Lo1Ll",
    "2So2Ll2Lu5Sm1Lu4Ll1So1Sm2So1Ll1So16No35Nl1Lu1Ll4Nl1No2So4Cn5Sm5So2Sm4So1Sm2So1Sm2So1Sm7So1Sm",
    "31So2Sm2So1Sm1So1Sm31So268Sm8So1Ps1Pe1Ps1Pe20So2Sm7So1Ps1Pe81So1Sm30So25Sm40So6Sm72So22Cn",
    "11So21Cn60No78So22No183So1Sm9So1Sm54So8Sm111So1Sm248So1Ps1Pe1Ps1Pe1Ps1Pe1Ps1Pe1Ps1Pe1Ps1Pe",
    "1Ps1Pe30No44So5Sm1Ps1Pe31Sm1Ps1Pe1Ps1Pe1Ps1Pe1Ps1Pe1Ps1Pe16Sm256So131Sm1Ps1Pe1Ps1Pe1Ps1Pe1Ps",
    "1Pe1Ps1Pe1Ps1Pe1Ps1Pe1Ps1Pe1Ps1Pe1Ps1Pe1Ps1Pe63Sm1Ps1Pe1Ps1Pe32Sm1Ps1Pe258Sm48So21Sm2So6Sm",
    "39So2Cn32So1Cn105So48Lu48Ll1Lu1Ll3Lu2Ll1Lu1Ll1Lu1Ll1Lu1Ll4Lu1Ll1Lu2Ll1Lu6Ll2Lm3Lu1Ll1Lu1Ll",
    "1Lu1Ll1Lu1Ll1Lu1Ll1Lu1Ll1Lu1Ll1Lu1Ll1Lu1Ll1Lu1Ll1Lu1Ll1Lu1Ll1Lu1Ll1Lu1Ll1Lu1Ll1Lu1Ll1Lu1Ll",
    "1Lu1Ll1Lu1Ll1Lu1Ll1Lu1Ll1Lu1Ll1Lu1Ll1Lu1Ll1Lu1Ll1Lu1Ll1Lu1Ll1Lu1Ll1Lu1Ll1Lu1Ll1Lu1Ll1Lu1Ll",
    "1Lu1Ll1Lu1Ll1Lu1Ll1Lu1Ll1Lu1Ll1Lu1Ll1Lu1Ll1Lu1Ll1Lu1Ll1Lu1Ll1Lu1Ll1Lu1Ll1Lu1Ll1Lu1Ll1Lu1Ll",
    "1Lu1Ll1Lu1Ll1Lu2Ll6So1Lu1Ll1Lu1Ll3Mn1Lu1Ll5Cn4Po1No2Po38Ll1Cn1Ll5Cn1Ll2Cn56Lo7Cn1Lm1Po14Cn",
    "1Mn23Lo9Cn7Lo1Cn7Lo1Cn7Lo1Cn7Lo1Cn7Lo1Cn7Lo1Cn7Lo1Cn7Lo1Cn32Mn2Po1Pi1Pf1Pi1Pf3Po1Pi1Pf1Po1Pi",
    "1Pf9Po1Pd2Po1Pd1Po1Pi1Pf2Po1Pi1Pf1Ps1Pe1Ps1Pe1Ps1Pe1Ps1Pe5Po1Lm10Po2Pd4Po1Pd1Po1Ps13Po2So3Po",
    "1Ps1Pe1Ps1Pe1Ps1Pe1Ps1Pe1Pd34Cn26So1Cn89So12Cn214So26Cn16So1Zs3Po1So1Lm1Lo1Nl1Ps1Pe1Ps1Pe1Ps",
    "1Pe1Ps1Pe1Ps1Pe2So1Ps1Pe1Ps1Pe1Ps1Pe1Ps1Pe1Pd1Ps2Pe1So9Nl4Mn2Mc1Pd5Lm2So3Nl1Lm1Lo1Po2So1Cn",
    "86Lo2Cn2Mn2Sk2Lm1Lo1Pd90Lo1Po3Lm1Lo5Cn43Lo1Cn94Lo1Cn2So4No10So32Lo38So9Cn1So16Lo31So1Cn10No",
    "30So8No1So15No32So10No39So15No320So6592Lo64So21013Lo1Lm1143Lo3Cn55So9Cn40Lo6Lm2Po268Lo1Lm3Po",
    "16Lo10Nd2Lo20Cn1Lu1Ll1Lu1Ll1Lu1Ll1Lu1Ll1Lu1Ll1Lu1Ll1Lu1Ll1Lu1Ll1Lu1Ll1Lu1Ll1Lu1Ll1Lu1Ll1Lu",
    "1Ll1Lu1Ll1Lu1Ll1Lu1Ll1Lu1Ll1Lu1Ll1Lu1Ll1Lu1Ll1Lu1Ll1Lu1Ll1Lu1Ll1Lo1Mn3Me1Po10Mn1Po1Lm1Lu1Ll",
    "1Lu1Ll1Lu1Ll1Lu1Ll1Lu1Ll1Lu1Ll1Lu1Ll1Lu1Ll1Lu1Ll1Lu1Ll1Lu1Ll1Lu1Ll1Lu1Ll1Lu1Ll2Lm2Mn70Lo10Nl",
    "2Mn6Po8Cn23Sk9Lm2Sk1Lu1Ll1Lu1Ll1Lu1Ll1Lu1Ll1Lu1Ll1Lu1Ll1Lu3Ll1Lu1Ll1Lu1Ll1Lu1Ll1Lu1Ll1Lu1Ll",
    "1Lu1Ll1Lu1Ll1Lu1Ll1Lu1Ll1Lu1Ll1Lu1Ll1Lu1Ll1Lu1Ll1Lu1Ll1Lu1Ll1Lu1Ll1Lu1Ll1Lu1Ll1Lu1Ll1Lu1Ll",
    "1Lu1Ll1Lu1Ll1Lu1Ll1Lu1Ll1Lu1Ll1Lu1Ll1Lu1Ll1Lu1Ll1Lu1Ll1Lu1Ll1Lu1Ll1Lm8Ll1Lu1Ll1Lu1Ll2Lu1Ll",
    "1Lu1Ll1Lu1Ll1Lu1Ll1Lu1Ll1Lm2Sk1Lu1Ll1Lu1Ll1Lo1Lu1Ll1Lu3Ll1Lu1Ll1Lu1Ll1Lu1Ll1Lu1Ll1Lu1Ll1Lu",
    "1Ll1Lu1Ll1Lu1Ll1Lu1Ll1Lu1Ll5Lu1Ll5Lu1Ll1Lu1Ll1Lu1Ll1Lu1Ll1Lu1Ll1Lu1Ll1Lu1Ll1Lu1Ll4Lu1Ll1Lu",
    "1Ll2Lu1Ll2Cn1Lu1Ll1Cn1Ll1Cn1Ll1Lu1Ll1Lu1Ll1Lu1Ll1Lu21Cn3Lm1Lu1Ll1Lo2Lm1Ll7Lo1Mn3Lo1Mn4Lo1Mn",
    "23Lo2Mc2Mn1Mc4So1Mn3Cn6No2So1Sc1So6Cn52Lo4Po8Cn2Mc50Lo16Mc2Mn8Cn2Po10Nd6Cn18Mn6Lo3Po1Lo1Po",
    "2Lo1Mn10Nd28Lo8Mn2Po23Lo11Mn2Mc11Cn1Po29Lo3Cn3Mn1Mc47Lo1Mn2Mc4Mn2Mc2Mn3Mc13Po1Cn1Lm10Nd4Cn",
    "2Po5Lo1Mn1Lm9Lo10Nd5Lo1Cn41Lo6Mn2Mc2Mn2Mc2Mn9Cn3Lo1Mn8Lo1Mn1Mc2Cn10Nd2Cn4Po16Lo1Lm6Lo3So1Lo",
    "1Mc1Mn1Mc50Lo1Mn1Lo3Mn2Lo2Mn5Lo2Mn1Lo1Mn1Lo24Cn2Lo1Lm2Po11Lo1Mc2Mn2Mc2Po1Lo2Lm1Mc1Mn10Cn6Lo",
    "2Cn6Lo2Cn6Lo9Cn7Lo1Cn7Lo1Cn43Ll1Sk4Lm9Ll1Lm2Sk4Cn80Ll35Lo2Mc1Mn2Mc1Mn2Mc1Po1Mc1Mn2Cn10Nd6Cn",
    "11172Lo12Cn23Lo4Cn49Lo4Cn2048Cs6400Co366Lo2Cn106Lo38Cn7Ll12Cn5Ll5Cn1Lo1Mn10Lo1Sm13Lo1Cn5Lo",
    "1Cn1Lo1Cn2Lo1Cn2Lo1Cn108Lo17Sk16Cn363Lo1Pe1Ps16So64Lo2Cn54Lo7Cn1So32Cn12Lo1Sc3So16Mn7Po1Ps",
    "1Pe1Po6Cn16Mn1Po2Pd2Pc1Ps1Pe1Ps1Pe1Ps1Pe1Ps1Pe1Ps1Pe1Ps1Pe1Ps1Pe1Ps1Pe2Po1Ps1Pe4Po3Pc3Po1Cn",
    "4Po1Pd1Ps1Pe1Ps1Pe1Ps1Pe3Po1Sm1Pd3Sm1Cn1Po1Sc2Po4Cn5Lo1Cn135Lo2Cn1Cf1Cn3Po1Sc3Po1Ps1Pe1Po1Sm",
    "1Po1Pd2Po10Nd2Po3Sm2Po26Lu1Ps1Po1Pe1Sk1Pc1Sk26Ll1Ps1Sm1Pe1Sm1Ps1Pe1Po1Ps1Pe2Po10Lo1Lm45Lo2Lm",
    "31Lo3Cn6Lo2Cn6Lo2Cn6Lo2Cn3Lo3Cn2Sc1Sm1Sk1So2Sc1Cn1So4Sm2So10Cn3Cf2So2Cn12Lo1Cn26Lo1Cn19Lo1Cn",
    "2Lo1Cn15Lo2Cn14Lo34Cn123Lo5Cn3Po4Cn45No3Cn9So53Nl4No17So2No3So1Cn13So3Cn1So47Cn45So1Mn130Cn",
    "29Lo3Cn49Lo15Cn1Mn27No4Cn32Lo4No9Cn20Lo1Nl8Lo1Nl5Cn38Lo5Mn5Cn30Lo1Cn1Po36Lo4Cn8Lo1Po5Nl42Cn",
    "40Lu40Ll78Lo2Cn10Nd6Cn36Lu4Cn36Ll4Cn40Lo8Cn52Lo11Cn1Po11Lu1Cn15Lu1Cn7Lu1Cn2Lu1Cn11Ll1Cn15Ll",
    "1Cn7Ll1Cn2Ll3Cn52Lo12Cn311Lo9Cn22Lo10Cn8Lo24Cn6Lm1Cn42Lm1Cn9Lm69Cn6Lo2Cn1Lo1Cn44Lo1Cn2Lo3Cn",
    "1Lo2Cn23Lo1Cn1Po8No23Lo2So7No31Lo8Cn9No48Cn19Lo1Cn2Lo5Cn5No22Lo6No3Cn1Po26Lo5Cn1Po64Cn56Lo",
    "4Cn2No2Lo16No2Cn46No1Lo3Mn1Cn2Mn5Cn4Mn4Lo1Cn3Lo1Cn29Lo2Cn3Mn4Cn1Mn9No7Cn9Po7Cn29Lo2No1Po29Lo",
    "3No32Cn8Lo1So28Lo2Mn4Cn5No7Po9Cn54Lo3Cn7Po22Lo2Cn8No19Lo5Cn8No18Lo7Cn4Po12Cn7No80Cn73Lo55Cn",
    "51Lu13Cn51Ll7Cn6No36Lo4Mn8Cn10Nd6Cn10Nd4Lo1Lm1Lo22Lu3Cn5Mn1Pd1Lm22Ll8Cn2Sm208Cn31No1Cn42Lo",
    "1Cn2Mn1Pd2Cn2Lo16Cn3Lo55Cn4Mn29Lo10No1Lo8Cn22Lo11Mn4No5Po22Cn18Lo4Mn4Po38Cn21Lo7No20Cn23Lo",
    "9Cn1Mc1Mn1Mc53Lo15Mn7Po4Cn20No10Nd1Mn2Lo2Mn1Lo9Cn3Mn1Mc45Lo3Mc4Mn2Mc2Mn2Po1Cf4Po1Mn10Cn1Cf",
    "2Cn25Lo7Cn10Nd6Cn3Mn36Lo5Mn1Mc8Mn1Cn10Nd4Po1Lo2Mc1Lo8Cn35Lo1Mn2Po1Lo9Cn2Mn1Mc48Lo3Mc9Mn2Mc",
    "4Lo4Po4Mn1Po1Mc1Mn10Nd1Lo1Po1Lo3Po1Cn20No11Cn18Lo1Cn25Lo3Mc3Mn2Mc1Mn1Mc2Mn6Po1Mn2Lo1Mn62Cn",
    "7Lo1Cn1Lo1Cn4Lo1Cn15Lo1Cn10Lo1Po6Cn47Lo1Mn3Mc8Mn5Cn10Nd6Cn2Mn2Mc1Cn8Lo2Cn2Lo2Cn22Lo1Cn7Lo1Cn",
    "2Lo1Cn5Lo1Cn2Mn1Lo2Mc1Mn4Mc2Cn2Mc2Cn3Mc2Cn1Lo6Cn1Mc5Cn5Lo2Mc2Cn7Mn3Cn5Mn11Cn10Lo1Cn1Lo2Cn1Lo",
    "1Cn38Lo1Cn1Lo3Mc6Mn1Cn1Mc2Cn1Mc1Cn4Mc1Cn2Mc1Mn1Mc1Mn1Lo1Mn1Lo2Po1Cn2Po8Cn2Mn29Cn53Lo3Mc8Mn",
    "2Mc3Mn1Mc1Mn4Lo5Po10Nd2Po1Cn1Po1Mn3Lo30Cn48Lo3Mc6Mn1Mc1Mn4Mc2Mn1Mc2Mn2Lo1Po1Lo8Cn10Nd166Cn",
    "47Lo3Mc4Mn2Cn4Mc2Mn1Mc2Mn23Po4Lo2Mn34Cn48Lo3Mc8Mn2Mc1Mn1Mc2Mn3Po1Lo11Cn10Nd6Cn13Po19Cn43Lo",
    "1Mn1Mc1Mn2Mc6Mn1Mc1Mn1Lo1Po6Cn10Nd6Cn20Nd28Cn27Lo2Cn3Mn2Mc4Mn1Mc5Mn4Cn10Nd2No3Po1So7Lo185Cn",
    "44Lo3Mc9Mn1Mc2Mn1Po100Cn32Lu32Ll10Nd9No12Cn8Lo2Cn1Lo2Cn8Lo1Cn2Lo1Cn24Lo6Mc1Cn2Mc2Cn2Mn1Mc1Mn",
    "1Lo1Mc1Lo1Mc1Mn3Po9Cn10Nd70Cn8Lo2Cn39Lo3Mc4Mn2Cn2Mn4Mc1Mn1Lo1Po1Lo1Mc27Cn1Lo10Mn40Lo6Mn1Mc",
    "1Lo4Mn8Po1Mn8Cn1Lo6Mn2Mc3Mn46Lo13Mn1Mc2Mn3Po1Lo5Po13Cn73Lo7Cn10Po182Cn33Lo1Po14Cn10Nd6Cn9Lo",
    "1Cn37Lo1Mc7Mn1Cn6Mn1Mc1Mn1Lo5Po10Cn10Nd19No3Cn2Po30Lo2Cn22Mn1Cn1Mc7Mn1Mc2Mn1Mc2Mn73Cn7Lo1Cn",
    "2Lo1Cn38Lo6Mn3Cn1Mn1Cn2Mn1Cn7Mn1Lo1Mn8Cn10Nd6Cn6Lo1Cn2Lo1Cn32Lo5Mc1Cn2Mn1Cn2Mc1Mn1Mc1Mn1Lo",
    "7Cn10Nd310Cn19Lo2Mn2Mc2Po7Cn2Mn1Lo1Mc13Lo1Cn34Lo2Mc5Mn3Cn2Mc1Mn1Mc1Mn13Po10Nd1Mn85Cn1Lo15Cn",
    "21No8So4Sc17So13Cn1Po922Lo102Cn111Nl1Cn5Po11Cn196Lo2636Cn97Lo2Po13Cn1072Lo16Cf1Mn6Lo15Mn10Cn",
    "3995Lo5Cn583Lo6841Cn30Lo12Mn3Mc3Mn10Nd1734Cn569Lo7Cn31Lo1Cn10Nd4Cn2Po79Lo1Cn10Nd6Cn30Lo2Cn",
    "5Mn1Po10Cn48Lo7Mn5Po4So4Lm1Po1So10Cn10Nd1Cn7No1Cn21Lo5Cn19Lo432Cn3Lm40Lo2Lm3Po10Nd198Cn32Lu",
    "32Ll23No4Po101Cn75Lo4Cn1Mn1Lo55Mc7Cn4Mn13Lm64Cn2Lm1Po1Lm1Mn11Cn2Mc14Cn6136Lo8Cn1238Lo41Cn",
    "10Lo8935Cn4Lm1Cn7Lm1Cn2Lm1Cn291Lo15Cn1Lo29Cn3Lo2Cn1Lo14Cn4Lo8Cn396Lo2308Cn107Lo5Cn13Lo3Cn9Lo",
    "7Cn10Lo2Cn1So2Mn1Po4Cf3932Cn240So10Nd6Cn436So76Cn46Mn2Cn23Mn9Cn116So60Cn246So10Cn39So2Cn60So",
    "2Mc3Mn3So6Mc8Cf8Mn2So7Mn30So4Mn61So21Cn66So3Mn1So122Cn20No12Cn20No12Cn87So9Cn25No135Cn26Lu",
    "26Ll26Lu7Ll1Cn18Ll26Lu26Ll1Lu1Cn2Lu2Cn1Lu2Cn2Lu2Cn4Lu1Cn8Lu4Ll1Cn1Ll1Cn7Ll1Cn11Ll26Lu26Ll2Lu",
    "1Cn4Lu2Cn8Lu1Cn7Lu1Cn26Ll2Lu1Cn4Lu1Cn5Lu1Cn1Lu3Cn7Lu1Cn26Ll26Lu26Ll26Lu26Ll26Lu26Ll26Lu26Ll",
    "26Lu26Ll26Lu28Ll2Cn25Lu1Sm25Ll1Sm6Ll25Lu1Sm25Ll1Sm6Ll25Lu1Sm25Ll1Sm6Ll25Lu1Sm25Ll1Sm6Ll25Lu",
    "1Sm25Ll1Sm6Ll1Lu1Ll2Cn50Nd512So55Mn4So50Mn8So1Mn14So1Mn2So5Po15Cn5Mn1Cn15Mn1104Cn10Ll1Lo20Ll",
    "6Cn6Ll213Cn7Mn1Cn17Mn2Cn7Mn1Cn2Mn1Cn5Mn5Cn62Lm33Cn1Mn112Cn45Lo3Cn7Mn7Lm2Cn10Nd4Cn1Lo1So320Cn",
    "30Lo1Mn17Cn44Lo4Mn10Nd5Cn1Sc464Cn27Lo1Lm4Mn10Nd214Cn30Lo2Mn1Lo10Nd4Cn1Po480Cn7Lo1Cn4Lo1Cn2Lo",
    "1Cn15Lo1Cn197Lo2Cn9No7Mn41Cn34Lu34Ll7Mn1Lm4Cn10Nd4Cn2Po785Cn59No1So3No1Sc4No76Cn45No1So15No",
    "194Cn4Lo1Cn27Lo1Cn2Lo1Cn1Lo2Cn1Lo1Cn10Lo1Cn4Lo1Cn1Lo1Cn1Lo6Cn1Lo4Cn1Lo1Cn1Lo1Cn1Lo1Cn3Lo1Cn",
    "2Lo1Cn1Lo2Cn1Lo1Cn1Lo1Cn1Lo1Cn1Lo1Cn1Lo1Cn2Lo1Cn1Lo2Cn4Lo1Cn7Lo1Cn4Lo1Cn4Lo1Cn1Lo1Cn10Lo1Cn",
    "17Lo5Cn3Lo1Cn5Lo1Cn17Lo52Cn2Sm270Cn44So4Cn100So12Cn15So2Cn15So1Cn15So1Cn37So10Cn13No161So",
    "56Cn29So13Cn44So4Cn9So7Cn2So14Cn6So154Cn251So5Sk728So4Cn17So3Cn13So3Cn119So4Cn95So6Cn12So4Cn",
    "1So15Cn12So4Cn56So8Cn10So6Cn40So8Cn30So2Cn12So4Cn2So62Cn340So12Cn14So2Cn13So3Cn10So5Cn56So",
    "7Cn15So2Cn11So6Cn9So7Cn147So1Cn92So10Nd1030Cn42720Lo32Cn4154Lo6Cn222Lo2Cn5762Lo14Cn7473Lo",
    "15Cn622Lo2466Cn542Lo1506Cn4939Lo5Cn4192Lo711761Cn1Cf30Cn96Cf128Cn240Mn65040Cn65534Co2Cn",
    "65534Co2Cn"]

/-- The category of an ASCII code point. -/
def ofAscii (n : Nat) : Category :=
  let c := Char.ofNat n
  if n < 32 || n = 127 then .cc
  else if c.isUpper then .lu
  else if c.isLower then .ll
  else if c.isDigit then .nd
  else match c with
    | ' ' => .zs
    | '$' => .sc
    | '_' => .pc
    | '-' => .pd
    | '(' | '[' | '\x7b' => .ps
    | ')' | ']' | '\x7d' => .pe
    | '+' | '<' | '=' | '>' | '|' | '~' => .sm
    | '^' | '`' => .sk
    | _ => .po

/-- The category of a character. -/
def ofChar (c : Char) : Category :=
  if c.toNat < 128 then ofAscii c.toNat
  else ((entryBelow table c.toNat).map Prod.snd).getD .cn

/-- The characters whose category satisfies a test. -/
def charSet (accept : Category → Bool) : CharSet :=
  CharSet.ofRanges (((List.range 128).filter fun n => accept (ofAscii n)).map (fun n => (n, n))
    ++ rangesOf accept table.toList)

def isLetter : Category → Bool
  | lu | ll | lt | lm | lo => true
  | _ => false

def isMark : Category → Bool
  | mn | mc | me => true
  | _ => false

def isNumber : Category → Bool
  | nd | nl | no => true
  | _ => false

def isPunctuation : Category → Bool
  | pc | pd | ps | pe | pi | pf | po => true
  | _ => false

def isSymbol : Category → Bool
  | sm | sc | sk | so => true
  | _ => false

def isSeparator : Category → Bool
  | zs | zl | zp => true
  | _ => false

/-- The categories of the class `Other`. A surrogate is no character, so there is
none in a set of characters. -/
def isOther : Category → Bool
  | cc | cf | co | cn => true
  | _ => false

/-- Letters that have case. -/
def isCasedLetter : Category → Bool
  | lu | ll | lt => true
  | _ => false

end Category

/-- The characters of the property `White_Space`. -/
def whiteSpace : CharSet :=
  ⟨[(0x09, 0x0D), (0x20, 0x20), (0x85, 0x85), (0xA0, 0xA0), (0x1680, 0x1680), (0x2000, 0x200A),
    (0x2028, 0x2029), (0x202F, 0x202F), (0x205F, 0x205F), (0x3000, 0x3000)]⟩

/-- The symbols that count as letters: letters in circles and squares. -/
def letterSymbols : List (Nat × Nat) :=
  [(0x24B6, 0x24E9), (0x1F130, 0x1F149), (0x1F150, 0x1F169), (0x1F170, 0x1F189)]

/-- The marks that count as letters: vowel signs and the like. -/
def letterMarks : List (Nat × Nat) := readRanges [
    "837 1 1456 14 1471 1 1473 2 1476 2 1479 1 1552 11 1611 13 1625 7 1648 1 1750 7 1761 4 1767 ",
    "2 1773 1 1809 1 1840 16 1958 11 2070 2 2075 9 2085 3 2089 4 2260 12 2275 7 2288 20 2362 2 ",
    "2366 15 2382 2 2389 3 2402 2 2433 3 2494 7 2503 2 2507 2 2519 1 2530 2 2561 3 2622 5 2631 2 ",
    "2635 2 2641 1 2672 2 2677 1 2689 3 2750 8 2759 3 2763 2 2786 2 2810 3 2817 3 2878 7 2887 2 ",
    "2891 2 2902 2 2914 2 2946 1 3006 5 3014 3 3018 3 3031 1 3072 5 3134 7 3142 3 3146 3 3157 2 ",
    "3170 2 3201 3 3262 7 3270 3 3274 3 3285 2 3298 2 3315 1 3328 4 3390 7 3398 3 3402 3 3415 1 ",
    "3426 2 3457 3 3535 6 3542 1 3544 8 3570 2 3633 1 3636 7 3661 1 3761 1 3764 6 3771 2 3789 1 ",
    "3953 19 3981 11 3993 36 4139 12 4152 1 4155 4 4182 4 4190 3 4194 3 4199 7 4209 4 4226 12 ",
    "4239 1 4250 4 5906 2 5938 2 5970 2 6002 2 6070 19 6277 2 6313 1 6432 12 6448 9 6679 5 6741 ",
    "10 6753 20 6847 2 6860 3 6912 5 6965 15 7040 3 7073 9 7084 2 7143 11 7204 19 7655 14 11744 ",
    "32 42612 8 42654 2 43010 1 43019 1 43043 5 43136 2 43188 16 43205 1 43263 1 43302 5 43335 ",
    "12 43392 4 43444 12 43493 1 43561 14 43587 1 43596 2 43643 3 43696 1 43698 3 43703 2 43710 ",
    "1 43755 5 43765 1 44003 8 64286 1 66422 5 68097 3 68101 2 68108 4 68900 4 69291 2 69632 3 ",
    "69688 14 69747 2 69760 3 69808 9 69826 1 69888 3 69927 12 69957 2 70016 3 70067 13 70094 2 ",
    "70188 9 70199 1 70206 1 70209 1 70367 10 70400 4 70462 7 70471 2 70475 2 70487 1 70498 2 ",
    "70709 13 70723 3 70832 18 71087 7 71096 7 71132 2 71216 15 71232 1 71339 11 71453 14 71724 ",
    "13 71984 6 71991 2 71995 2 72000 1 72002 1 72145 7 72154 6 72164 1 72193 10 72245 5 72251 4 ",
    "72273 11 72330 14 72751 8 72760 7 72850 22 72873 14 73009 6 73018 1 73020 2 73023 3 73027 1 ",
    "73031 1 73098 5 73104 2 73107 4 73459 4 73472 2 73475 1 73524 7 73534 3 94031 1 94033 55 ",
    "94095 4 94192 2 113822 1 122880 7 122888 17 122907 7 122915 2 122918 5 123023 1 125255 1"]

/-- The characters of the property `Alphabetic`. -/
def alphabetic : CharSet :=
  (Category.charSet fun c => c.isLetter || c == .nl).union
    (CharSet.ofRanges (letterSymbols ++ letterMarks))

/-- The characters that words are made of: letters and symbols and marks among
them, decimal digits, connectors, and the two joiners. -/
def wordChars : CharSet :=
  (Category.charSet fun c => c.isLetter || c.isMark || c == .nl || c == .nd || c == .pc).union
    (CharSet.ofRanges ((0x200C, 0x200D) :: letterSymbols))

/-- The decimal digits of all scripts. -/
def decimalDigits : CharSet := Category.charSet (· == .nd)

/-- The characters of the property `Lowercase`. -/
def lowercase : CharSet :=
  (Category.charSet (· == .ll)).union (CharSet.ofRanges
    [(0xAA, 0xAA), (0xBA, 0xBA), (0x2B0, 0x2B8), (0x2C0, 0x2C1), (0x2E0, 0x2E4), (0x345, 0x345),
     (0x37A, 0x37A), (0x10FC, 0x10FC), (0x1D2C, 0x1D6A), (0x1D78, 0x1D78), (0x1D9B, 0x1DBF),
     (0x2071, 0x2071), (0x207F, 0x207F), (0x2090, 0x209C), (0x2170, 0x217F), (0x24D0, 0x24E9),
     (0x2C7C, 0x2C7D), (0xA69C, 0xA69D), (0xA770, 0xA770), (0xA7F2, 0xA7F4), (0xA7F8, 0xA7F9),
     (0xAB5C, 0xAB5F), (0xAB69, 0xAB69), (0x10780, 0x10780), (0x10783, 0x10785),
     (0x10787, 0x107B0), (0x107B2, 0x107BA), (0x1E030, 0x1E06D)])

/-- The characters of the property `Uppercase`. -/
def uppercase : CharSet :=
  (Category.charSet (· == .lu)).union (CharSet.ofRanges
    [(0x2160, 0x216F), (0x24B6, 0x24CF), (0x1F130, 0x1F149), (0x1F150, 0x1F169),
     (0x1F170, 0x1F189)])

/-- The characters that have case. -/
def cased : CharSet := (lowercase.union uppercase).union (Category.charSet (· == .lt))

/-- The characters that are passed over when the end of a word is looked for. -/
def caseIgnorable : CharSet :=
  (Category.charSet fun c =>
      c == .mn || c == .me || c == .cf || c == .lm || c == .sk).union (CharSet.ofRanges
    [(0x27, 0x27), (0x2E, 0x2E), (0x3A, 0x3A), (0xB7, 0xB7), (0x387, 0x387), (0x55F, 0x55F),
     (0x5F4, 0x5F4), (0x2018, 0x2019), (0x2024, 0x2024), (0x2027, 0x2027), (0xFE13, 0xFE13),
     (0xFE52, 0xFE52), (0xFE55, 0xFE55), (0xFF07, 0xFF07), (0xFF0E, 0xFF0E), (0xFF1A, 0xFF1A)])

/-- The characters that extend the one before them. -/
def graphemeExtend : CharSet :=
  (Category.charSet fun c => c == .mn || c == .me).union (CharSet.ofRanges
    [(0x9BE, 0x9BE), (0x9D7, 0x9D7), (0xB3E, 0xB3E), (0xB57, 0xB57), (0xBBE, 0xBBE),
     (0xBD7, 0xBD7), (0xCC0, 0xCC0), (0xCC2, 0xCC2), (0xCC7, 0xCC8), (0xCCA, 0xCCB),
     (0xCD5, 0xCD6), (0xD3E, 0xD3E), (0xD57, 0xD57), (0xDCF, 0xDCF), (0xDDF, 0xDDF),
     (0x1B35, 0x1B35), (0x200C, 0x200C), (0x302E, 0x302F), (0xFF9E, 0xFF9F),
     (0x1133E, 0x1133E), (0x11357, 0x11357), (0x114B0, 0x114B0), (0x114BD, 0x114BD),
     (0x115AF, 0x115AF), (0x11930, 0x11930), (0x1D165, 0x1D165), (0x1D16E, 0x1D172),
     (0xE0020, 0xE007F)])

end Unicode

end Descent
