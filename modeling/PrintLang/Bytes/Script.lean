import PrintLang.Bytes.Runs

set_option autoImplicit false

namespace PrintLang

namespace Script

def names : List String := [
    "adlam", "ahom", "anatolianhieroglyphs", "arabic", "armenian", "avestan", "balinese", "bamum",
    "bassavah", "batak", "bengali", "beriaerfe", "bhaiksuki", "bopomofo", "brahmi", "braille",
    "buginese", "buhid", "canadianaboriginal", "carian", "caucasianalbanian", "chakma", "cham",
    "cherokee", "chorasmian", "common", "coptic", "cuneiform", "cypriot", "cyprominoan",
    "cyrillic", "deseret", "devanagari", "divesakuru", "dogra", "duployan", "egyptianhieroglyphs",
    "elbasan", "elymaic", "ethiopic", "garay", "georgian", "glagolitic", "gothic", "grantha",
    "greek", "gujarati", "gunjalagondi", "gurmukhi", "gurungkhema", "han", "hangul",
    "hanifirohingya", "hanunoo", "hatran", "hebrew", "hiragana", "imperialaramaic", "inherited",
    "inscriptionalpahlavi", "inscriptionalparthian", "javanese", "kaithi", "kannada", "katakana",
    "kawi", "kayahli", "kharoshthi", "khitansmallscript", "khmer", "khojki", "khudawadi",
    "kiratrai", "lao", "latin", "lepcha", "limbu", "lineara", "linearb", "lisu", "lycian",
    "lydian", "mahajani", "makasar", "malayalam", "mandaic", "manichaean", "marchen",
    "masaramgondi", "medefaidrin", "meeteimayek", "mendekikakui", "meroiticcursive",
    "meroitichieroglyphs", "miao", "modi", "mongolian", "mro", "multani", "myanmar", "nabataean",
    "nagmundari", "nandinagari", "newtailue", "newa", "nko", "nushu", "nyiakengpuachuehmong",
    "ogham", "olchiki", "olonal", "oldhungarian", "olditalic", "oldnortharabian", "oldpermic",
    "oldpersian", "oldsogdian", "oldsoutharabian", "oldturkic", "olduyghur", "oriya", "osage",
    "osmanya", "pahawhhmong", "palmyrene", "paucinhau", "phagspa", "phoenician", "psalterpahlavi",
    "rejang", "runic", "samaritan", "saurashtra", "sharada", "shavian", "siddham", "sidetic",
    "signwriting", "sinhala", "sogdian", "sorasompeng", "soyombo", "sundanese", "sunuwar",
    "sylotinagri", "syriac", "tagalog", "tagbanwa", "taile", "taitham", "taiviet", "taiyo",
    "takri", "tamil", "tangsa", "tangut", "telugu", "thaana", "thai", "tibetan", "tifinagh",
    "tirhuta", "todhri", "tolongsiki", "toto", "tulutigalari", "ugaritic", "vai", "vithkuqi",
    "wancho", "warangciti", "yezidi", "yi", "zanabazarsquare"]

def lines : List String := [
  "65Ba26Cx6Ba26Cx47BaCx15BaCx5Ba23CxBa31CxBa449Cx39Ba5Cx5Ba2o20Ba112Ch4BuBa3Bu2a4BuBaBu4aBuBaBu",
  "Ba3BuaBua20Bua63Bu14Bb16Bu133Bf2Ch169Bfa38f2a50f2a3fa55Ce8a27Ce4a6Ce11a5eBa6eBa14eBa3eBa32eBa",
  "10e11Ch26eCh108eBa34e14Fqa60Fq2a3Fq48e50Gc14a59Ec2a3Ec46Fc2a15Fca28Di2aDia11Fq5a34e5a75eBa29e",
  "81Bh4Ch15Bh2Ba26Bh4la8l2a2l2a22la7lal3a4l2a9l2a2l2a4l8al4a2la5l2a25l2a3Bxa6Bx4a2Bx2a22Bxa7Bxa",
  "2Bxa2Bxa2Bx2aBxa5Bx4a2Bx2a3Bx3aBx7a4BxaBx7a17Bx10a3Bva9Bva3Bva22Bva7Bva2Bva5Bv2a10Bva3Bva3Bv",
  "2aBv15a4Bv2a12Bv7a7Bva3Era8Er2a2Er2a22Era7Era2Era5Er2a9Er2a2Er2a3Er7a3Er4a2Era5Er2a18Er10a2Fy",
  "a6Fy3a3Fya4Fy3a2FyaFya2Fy3a2Fy3a3Fy3a12Fy4a5Fy3a3Fya4Fy2aFy6aFy14a21Fy5a13Gba3Gba23Gba16Gb2a",
  "9Gba3Gba4Gb7a2Gba3Gba2Gb2a4Gb2a10Gb7a9Gb13Cma3Cma23Cma10Cma5Cm2a9Cma3Cma4Cm7a2Cm5a3Cma4Cm2a",
  "10Cma3Cm12a13Dha3Dha51Dha3Dha6Dh4a16Dh2a26Dha3Fja18Fj3a24Fja9FjaFj2a7Fj3aFj4a6FjaFja8Fj6a10Fj",
  "2a3Fj12a58Gd4aBa28Gd37a2CwaCwa5Cwa24CwaCwa23Cw2a5CwaCwa7Cwa10Cw2a4Cw32a72Gea36Ge4a39Gea36Gea",
  "15Gea7Ge4Ba2Ge37a160Dw38BqaBq5aBq2a43BqBa4Bq256Ca73Boa4Bo2a7BoaBoa4Bo2a41Boa4Bo2a33Boa4Bo2a",
  "7BoaBoa4Bo2a15Boa57Boa4Bo2a67Bo2a32Bo3a26Bo6a86y2a6y2a640t29Ef3a75Fb3Ba11Fb7a22Fr9aFr21Cc2Ba",
  "9a20s12a13Fsa3Fsa2Fs12a94Cs2a10Cs6a10Cs6a2Dt2BaDtBa20Dt6a89Dt7a43Dt5a70t10a31Cza12Cz4a12Cz4a",
  "Cz3a12Cz30Ft2a5Ft11a44Ea4a26Ea6a11Ea3a2Ea32Cs28r2a2r63Fua29Fu2a11Fu6a10Fu6a14Fu2a46Ch2a12Ch",
  "20a77ha50h64Fn52k8a4k56Cy3a15Cy3a3Cy48Eg11Bf5a43Bq2a3Bq8Fn8a3ChBa13ChBa7Ch4BaCh6BaCh3Ba2ChBa",
  "5a38Cx5BuBf49Cx5Bu4Cx5Bu13CxBf70CxBu64Ch256Cx22Bu2a6Bu2a38Bu2a6Bu2a8BuaBuaBuaBua31Bu2a53Bua",
  "15Bua14Bu2a6Bua19Bu2a3Bua9Bua12Ba2Ch87Baa11BaCx2a11BaCx15Baa13Cx3a34Ba14a33Ch15a38BaBu3Ba2Cx",
  "6BaCx27BaCx17Ba41Cx3Ba4a666Ba22a11Ba21a928Ba256q628Ba2a138Ba96Br32Cx116Bb5a7Bb38BqaBq5aBq2a",
  "56Gf7a2Gf14aGf23Bo9a7Boa7Boa7Boa7Boa7Boa7Boa7Boa7Boa32Bf94Ba34a26Bza89Bz12a214Bz26a21BaBzBaBz",
  "25Ba9Bz4Ch2Ca8Ba4Bz4Baa86Cf2a2Ch2Ba3CfBa90Cn2Ba3Cn5a43oa94Caa16Ba32o38Ba9aBa16Cn31Caa64Ba31Ca",
  "81Ba47CnBa88Cn168Ba6592Bz64Ba20992Bz1165Gr3a55Gr9a48Dc300Gm20a96Bf88i8a34Ba102Cx3Ba82Cx20a",
  "15Cx45Fp3a10Ba6a56Ex8a70Fd8a12Fd6a32Bh46CpBaCp36Fa11aFa29Ca3a78CkaBa10Ck4a2Ck31Dwa55x9a14x2a",
  "10x2a4x32Dw67Fv24a5Fv23Dn10a6Bo2a6Bo2a6Bo9a7Boa7Boa43CxBa9CxBu4Cx2Ba4a80y46Dn2a10Dn6a11172Ca",
  "12a23Ca4a49Ca8452a366Bz2a106Bz38a7Cx12a5f5a26Cea5CeaCea2Cea2Cea10Ce494e2Ba144e32a16e16Ch10Ba",
  "6a14Ch2Bf35Baa19Baa4Ba4a5ea135e2aBaa32Ba26Cx6Ba26Cx11Ba10CnBa45Cn2Ba31Ca3a6Ca2a6Ca2a6Ca2a3Ca",
  "3a7Baa7Ba10a5Ba2a12Dba26Dba19Dba2Dba15Db2a14Db34a123Db5a3Ba4a45Ba3a9Ba79Bua13Ba3aBu47a45BaCh",
  "130a29Dd3a49u15aCh27Ba4a36Ej9a3Ej27Bs5a43El5a30GlaGl36Em4a14Em42a80Bg48Ff30Et2a10Et6a36Es4a",
  "36Es4a40Bm8a52v11av11Gna15Gna7Gna2Gna11Gna15Gna7Gna2Gn3a52Gh12a311Da9a22Da10a8Da24a6Cxa42Cxa",
  "9Cx69a6Bd2aBda44Bda2Bd3aBd2aBd22Cga9Cg32Ev31Dx8a9Dx48a19Cda2Cd5a5Cd28Ey3aEy26De5aDe26Fh38a",
  "32Dq24Dp4a20Dp2a46Dp4Cqa2Cq5a8Cqa3Cqa29Cq2a3Cq4a10Cq7a9Cq7a32Eo32Ek32a39Dj4a12Dj9a54g3a7g22Cj",
  "2a8Cj19Ci5a8Ci18Ez7a4Ez12a7Ez80a73Ep55a51Ei13a51Ei7a6Ei40Cb8a10Cb6a38Bp3a29Bp8a2Bp208a31ea",
  "42Gqa3Gq2a2Gq16a6e8a9e33a6e40En8a42Fk22a26Eq38a28z20a23Bn9a78p4a36p9ap67Cl10aCl2a25Fl7a10Fl6a",
  "53wa18w8a39Df9a96Fea20Fj11a18Cta47Ct62a7DvaDva4Dva15Dva11Dv6a59Cu5a10Cu6a4Bta8Bt2a2Bt2a22Bta",
  "7Bta2Bta5BtaCh9Bt2a2Bt2a3Bt2aBt6aBt5a7Bt2a7Bt3a5Bt11a10GkaGk2aGka38Gka10GkaGk2aGka4Gka10Gka",
  "2Gk8a2Gk29a92Eba5Eb30a72Gg8a10Gg166a54Fg2a38Fg34a69Ds11a10Ds6a13Dt19a58Fx6a10Fx6a20Dw28a27c2a",
  "15c4a23c185a60Bj100a83Gp12aGp7Bi2aBi2a8Bia2Bia30Bia2Bi2a12Bi9a10Bi70a8Dz2a46Dz2a11Dz27a72Gs8a",
  "83Fm13a16t57Ew7a10Bh86a8Fe88a34Fo14a10Fo6a9na45na14n10a29n3a32Dk2a22Dka14Dk73a7Dla2Dla44Dl3a",
  "Dla2Dla9Dl8a10Dl6a6Bwa2Bwa37Bwa2Bwa6Bw7a10Bw6a44Gi4a10Gi246a25Dg7a17Coa41Co3a29Co85aDc15a50Fy",
  "13aFy922Bc102a111Bca5Bc11a196Bc2636a99Be13a1110Bl10a3995Bl5a583d6841a58By1734a569i7a31Dua10Du",
  "4a2Du79Fza10Fz6a30j2a6j10a70Eu10a10Eua7Eua21Eu5a19Eu432a58Cv198a91Dm5a25m2a25m44a75Dr4a57Dr7a",
  "17Dr64aGaEd2BzCr11a7Bz9a6912Ga470Cr41aCr31Ga97a115Ga8701a4Cna7Cna2CnaCn287Cf3Cn15aCf29a3Cf2a",
  "Cn14a4Cn8a396Ed2308a107Bk5a13Bk3a9Bk7a10Bk2a4Bk4Ba3932a253Ba3a436Ba6a23Ba15a17Ba15a46Ch2a23Ch",
  "9a116Ba60a246Ba10a39Ba2a62Ba3Ch17Ba8Ch2Ba7Ch30Ba4Ch61Ba21a70Bu122a20Ba12a20Ba12a87Ba9a25Ba",
  "135a85Baa71Baa2Ba2aBa2a2Ba2a4Baa12BaaBaa7Baa65Baa4Ba2a8Baa7Baa28Baa4Baa5BaaBa3a7Baa340Ba2a",
  "292Ba2a50Ba652Fi15a5Fia15Fi1104a31Cx6a6Cx213a7Bra17Br2a7Bra2Bra5Br5a62Bf33aBf112a45Ee3a14Ee2a",
  "10Ee4a2Ee320a31Gj17a58Go5aGo464a42Dy214a43Eh4aEh192a31Fwa22Fw8a2Fw224a7Boa4Boa2Boa15Boa197Do",
  "2a16Do41a76b4a10b4a2b785a68Ba76a61Ba194a4ea27ea2eae2aea10ea4eaeae6ae4aeaeaea3ea2eae2aeaeaeaea",
  "ea2eae2a4ea7ea4ea4eaea10ea17e5a3ea5ea17e52a2e270a44Ba4a100Ba12a15Ba2a15Baa15Baa37Ba10a174Ba",
  "56a26BaCf2Ba13a44Ba4a9Ba7a2Ba14a6Ba154a985Ba3a17Ba3a13Ba3a218Ba6a12Ba4aBa15a12Ba4a56Ba8a10Ba",
  "6a40Ba8a30Ba2a12Ba4a2Ba14a9Ba39a344Ba8a14Ba2a13Ba3a11Ba3a57BaaBa4a16Ba2a12Ba4a10Ba7a147Baa",
  "103Ba1029a42720Bz32a4382Bz2a5774Bz2a7473Bz15a622Bz2466a542Bz1506a4939Bz5a8490Bz707463aBa30a",
  "96Ba128a240Ch196112a"]

def runs : Runs := .ofLines lines

def holds (name : String) (code : Nat) : Bool :=
  match runs.number code with
  | 0 => false
  | n + 1 => names[n]? == some name

end Script

end PrintLang
