import PrintLang.Bytes.Runs

set_option autoImplicit false

namespace PrintLang

namespace Category

def names : List String := [
    "cc", "cf", "cn", "co", "cs", "ll", "lm", "lo", "lt", "lu", "mc", "me", "mn", "nd", "nl", "no",
    "pc", "pd", "pe", "pf", "pi", "po", "ps", "sc", "sk", "sm", "so", "zl", "zp", "zs"]

def otherNames : List (String × String) := [
    ("other", "c"), ("control", "cc"), ("cntrl", "cc"), ("format", "cf"), ("unassigned", "cn"),
    ("privateuse", "co"), ("surrogate", "cs"), ("letter", "l"), ("casedletter", "lc"),
    ("lowercaseletter", "ll"), ("modifierletter", "lm"), ("otherletter", "lo"),
    ("titlecaseletter", "lt"), ("uppercaseletter", "lu"), ("mark", "m"), ("combiningmark", "m"),
    ("spacingmark", "mc"), ("enclosingmark", "me"), ("nonspacingmark", "mn"), ("number", "n"),
    ("decimalnumber", "nd"), ("digit", "nd"), ("letternumber", "nl"), ("othernumber", "no"),
    ("punctuation", "p"), ("punct", "p"), ("connectorpunctuation", "pc"),
    ("dashpunctuation", "pd"), ("closepunctuation", "pe"), ("finalpunctuation", "pf"),
    ("initialpunctuation", "pi"), ("otherpunctuation", "po"), ("openpunctuation", "ps"),
    ("symbol", "s"), ("currencysymbol", "sc"), ("modifiersymbol", "sk"), ("mathsymbol", "sm"),
    ("othersymbol", "so"), ("separator", "z"), ("lineseparator", "zl"),
    ("paragraphseparator", "zp"), ("spaceseparator", "zs")]

def lines : List String := [
  "32aBd3vx3vwsvzvr2v10n2v3z2v26jwvsyqy26fwzsz33aBdv4xBavyBahuzbBayBaz2pyf2vypht3pv23jz7j24fz8fj",
  "fjfjfjfjfjfjfjfjfjfjfjfjfjfjfjfjfjfjfjfjfjfjfjfjfjfjfj2fjfjfjfjfjfjfjfj2fjfjfjfjfjfjfjfjfjfjf",
  "jfjfjfjfjfjfjfjfjfjfjfjfjf2jfjfj3f2jfjf2jf3j2f4jf2jf3j3f2jf2jfjfjf2jfj2fjf2jf3jfjf2j2fhj3f4hj",
  "ifjifjifjfjfjfjfjfjfjfj2fjfjfjfjfjfjfjfjfj2fjifjf3jfjfjfjfjfjfjfjfjfjfjfjfjfjfjfjfjfjfjfjfjfj",
  "fjfjfjfjfjfjfjfj7f2jf2j2fjf4jfjfjfjfj69f2h26f18g4y12g14y5g7ygyg17y112mjfjfgyjf2cg3fvj4c2yjv3j",
  "cjc2jf17jc9j35fj2f3j3fjfjfjfjfjfjfjfjfjfjfjfj5fjfzjf2j2f51j48fjfjfjfjfjfjfjfjfjfjfjfjfjfjfjfj",
  "fjfBa5m2ljfjfjfjfjfjfjfjfjfjfjfjfjfjfjfjfjfjfjfjfjfjfjfjfjfjfjf2jfjfjfjfjfjfj2fjfjfjfjfjfjfjf",
  "jfjfjfjfjfjfjfjfjfjfjfjfjfjfjfjfjfjfjfjfjfjfjfjfjfjfjfjfjfjfjfjfjfjfjfjfjfjfjfjfjfc38j2cg6v",
  "41fvr2c2Baxc45mrmv2mv2mvm8c27h4c4h2v11c6b3z2vx2v2Ba11mvb3v32hg10h21m10n4v2hm99hvh7mbBa6m2g2m",
  "Ba4m2h10n3h2Bah14vcbhm30h27m2c89h11mh14c10n33h9m2gBa3vg2cm2x22h4mg9mg3mg5m2c15vc25h3m2cvc11h",
  "5c24hy7h2b5c9m41hg24mb32mk54hmkmh3k8m4km2kh7m10h2m2v10nvg15hm2kc8h2c2h2c22hc7hch3c4h2cmh3k4m",
  "2c2k2c2kmh8ck4c2hc3h2m2c10n2h2x6pBaxhvm2c2mkc6h4c2h2c22hc7hc2hc2hc2h2cmc3k2m4c2m2c3m3cm7c4hch",
  "7c10n2m3hmv10c2mkc9hc3hc22hc7hc2hc5h2cmh3k5mc2mkc2km2ch15c2h2m2c10nvx7ch6mcm2kc8h2c2h2c22hc7h",
  "c2hc5h2cmhkmk4m2c2k2c2km7c2mk4c2hc3h2m2c10nBah6p10cmhc6h3c3hc4h3c2hchc2h3c2h3c3h3c12h4c2km2k",
  "3c3kc3km2ch6ck14c10n3p6BaxBa5cm3km8hc3hc23hc16h2cmh3m4kc3mc4m7c2mc3hc2h2c2h2m2c10n7cv7pBahm2k",
  "v8hc3hc23hc10hc5h2cmhkm5kcm2kc2k2m7c2k5c3hc2h2m2c10nc2hk12c2m2k9hc3hc41h2mh3k4mc3kc3kmhBa4c3h",
  "k7p3h2m2c10n9pBa6hcm2kc18h3c24hc9hch2c7h3cm4c3k3mcmc8k6c10n2c2kv12c48hm2h7m4cx6hg8mv10n2v37c",
  "2hchc5hc24hchc10hm2h9mh2c5hcgc7mc10n2c4h32ch3Ba15vBav3Ba2m6Ba10n10pBamBamBamwsws2k8hc36h4c14m",
  "k5mv2m5h11mc36mc8Bam6Bac2Ba5v4Ba2v37c43h2k4mk6mk2m2k2mh10n6v6h2k2m4h3mh3k2h7k3h4m13hm2k2m6kmh",
  "k10n3km2Ba38jcj5cj2c43fvg3f329hc4h2c7hchc4h2c41hc4h2c33hc4h2c7hchc4h2c15hc57hc4h2c67h2c3m9v",
  "20p3c16h10Ba6c86j2c6f2cr620hBav17hBd26hws3c75h3v3o8h7c18h3mk9c19h2mk2v9c18h2m12c13hc3hc2m12c",
  "52h2mk7m8km2k11m3vg3vxhm2c10n6c10p6c6vr4v3mbm10n6c35hg53h7c5h2m34hmh5c70h10c31hc3m4k2m3k4c2km",
  "6k3m4cBa3c2v10n30h2c5h11c44h4c26h6c10np3c34Ba23h2m2km2c2v53hkmk7mcmkm2k8m6k10m2cm10n6c10n6c7v",
  "g6v2c14ml31m2c12m20c4mk47hmk5mkm5km2k8hc2v10n7v10Ba9m9Ba3v2mk30hk4m2k2mk3m2h10n44hmk2m3kmk3m",
  "2k8c4v36h8k8m2k2m3c5v10n3c3h10n30h6g2v9fjf5c43j2c3j8v8c3mv13mk7m4hm6hm2hk2mh5c44f63g13fg34f",
  "37g64mjfjfjfjfjfjfjfjfjfjfjfjfjfjfjfjfjfjfjfjfjfjfjfjfjfjfjfjfjfjfjfjfjfjfjfjfjfjfjfjfjfjfjfj",
  "fjfjfjfjfjfjfjfjfjfjfjfjfjfjfjfjfjfjfjfjfjfjfjfjfjfjfjfjfjfjfj9fjfjfjfjfjfjfjfjfjfjfjfjfjfjfj",
  "fjfjfjfjfjfjfjfjfjfjfjfjfjfjfjfjfjfjfjfjfjfjfjfjfjfjfjfjfjfjfjfjfjfj9f8j6f2c6j2c8f8j8f8j6f2c",
  "6j2c8fcjcjcjcj8f8j14f2c8f8i8f8i8f8i5fc2f4jiyf3y3fc2f4ji3y4f2c2f4jc3y8f5j3y2c3fc2f4ji2yc11Bd5b",
  "6r2vutw2utwu8vBbBc5bBd9vut4v2q3vzws11vzvq10vBd5bc10bpg2c6p3zwsg10p3zwsc13g3c34x14c13m4lm3l12m",
  "15c2Baj4Baj2Baf3j2f3jfBaj2Baz5j6BajBajBajBa4jBaf4jf4hf2Ba2f2j5zj4fBaz2BafBa16p35ojf4op2Ba4c5z",
  "5Ba2z4Baz2Baz2Baz7Baz31Ba2z2BazBaz31Ba268z8Bawsws20Ba2z7Baws81Baz30Ba25z40Ba6z72Ba22c11Ba21c",
  "60p78Ba22p183Baz9Baz54Ba8z111Baz248Bawswswswswswsws30p44Ba5zws31zwswswswsws16z256Ba131zwswsws",
  "wswswswswswswsws63zwsws32zws258z48Ba21z2Ba6z39Ba2c138Ba48j48fjf3j2fjfjfjf4jfj2fj6f2g3jfjfjfjf",
  "jfjfjfjfjfjfjfjfjfjfjfjfjfjfjfjfjfjfjfjfjfjfjfjfjfjfjfjfjfjfjfjfjfjfjfjfjfjfjfjfjfjfjfjfjfj2f",
  "6Bajfjf3mjf5c4vp2v38fcf5cf2c56h7cgv14cm23h9c7hc7hc7hc7hc7hc7hc7hc7hc32m2vutut3vutvut9vr2vrvut",
  "2vutwswswsws5vg10v2r4vrvw13v2Ba3vwswswswsr34c26Bac89Ba12c214Ba26c16BaBd3vBaghowswswswsws2Baws",
  "wswswsrw2sBa9o4m2kr5g2Ba3oghv2Bac86h2c2m2y2ghr90hv3gh5c43hc94hc2Ba4p10Ba32h38Ba9cBa16h31Bac",
  "10p30Ba8pBa15p32Ba10p39Ba15p320Ba6592h64Ba21013hg1143h3c55Ba9c40h6g2v268hg3v16h10n2h20cjfjfjf",
  "jfjfjfjfjfjfjfjfjfjfjfjfjfjfjfjfjfjfjfjfhm3lv10mvgjfjfjfjfjfjfjfjfjfjfjfjfjfjf2g2m70h10o2m6v",
  "8c23y9g2yjfjfjfjfjfjfj3fjfjfjfjfjfjfjfjfjfjfjfjfjfjfjfjfjfjfjfjfjfjfjfjfjfjfjfjfjfjfjfg8fjfjf",
  "2jfjfjfjfjfg2yjfjfhjfj3fjfjfjfjfjfjfjfjfjfjf5jf5jfjfjfjfjfjfjfjf4jfjf2jfjfjfjfjfjfjfjfj20c4gj",
  "fh2gf7hm3hm4hm23h2k2mk4Bam3c6p2BaxBa6c52h4v8c2k50h16k2m8c2v10n6c18m6h3vhv2hm10n28h8m2v23h11m",
  "2k11cv29h3c3mk47hm2k4m2k2m3k13vcg10n4c2v5hmg9h10n5hc41h6m2k2m2k2m9c3hm8hmk2c10n2c4v16hg6h3Bah",
  "kmk50hmh3m2h2m5h2mhmh24c2hg2v11hk2m2k2vh2gkm10c6h2c6h2c6h9c7hc7hc43fy4g9fg2y4c80f35h2km2km2kv",
  "km2c10n6c11172h12c23h4c49h4c2048e6400d366h2c106h38c7f12c5f5chm10hz13hc5hchc2hc2hc108h17y16Ba",
  "363hsw16Ba64h2Ba54h8Ba32c12hx3Ba16m7vwsv6c16mv2r2qwswswswswswswsws2vws4v3q3vc4vrwswsws3vzr3zc",
  "vx2v4c5hc135h2cbc3vx3vwsvzvr2v10n2v3z2v26jwvsyqy26fwzszwsvws2v10hg45h2g31h3c6h2c6h2c6h2c3h3c",
  "2xzyBa2xcBa4z2Ba10c3b2Ba2c12hc26hc19hc2hc15h2c14h34c123h5c3v4c45p3c9Ba53o4p17Ba2p3Bac13Ba3cBa",
  "47c45Bam130c29h3c49h15cm27p4c32h4p9c20ho8ho5c38h5m5c30hcv36h4c8hv5o42c40j40f78h2c10n6c36j4c",
  "36f4c40h8c52h11cv11jc15jc7jc2jc11fc15fc7fc2f3c52h12c311h9c22h10c8h24c6gc42gc9g69c6h2chc44hc2h",
  "3ch2c23hcv8p23h2Ba7p31h8c9p48c19hc2h5c5p22h6p3cv26h5cv26h38c56h4c2p2h16p2c46ph3mc2m5c4m4hc3hc",
  "29h2c3m4cm9p7c9v7c29h2pv29h3p32c8hBa28h2m4c5p7v9c54h3c7v22h2c8p19h5c8p18h7c4v12c7p80c73h55c",
  "51j13c51f7c6p36h4m8c10n6c10n4hgh22j3c5mrg22f8c2z208c31pc42hc2mr2c2h16c3hg2h8cv8Ba33c6m29h10ph",
  "8c22h11m4p5v22c18h4m4v38c21h7p20c23h9ckmk53h15m7v4c20p10nm2h2mh9c3mk45h3k4m2k2m2vb4vm10cb2c",
  "25h7c10n6c3m36h5mk8mc10n4vh2kh8c35hm2vh9c2mk48h3k9m2k4h4v4mvkm10nhvh3vc20p11c18hc25h3k3m2kmk",
  "2m6vm2hm62c7hchc4hc15hc10hv6c47hm3k8m5c10n6c2m2kc8h2c2h2c22hc7hc2hc5hc2mh2km4k2c2k2c3k2ch6ck",
  "5c5h2k2c7m3c5m11c10hch2chc38hch3k6mck2ckc4kc2kmkmhmh2vc2v8c2m29c53h3k8m2k3mkm4h5v10n2vcvm3h",
  "30c48h3k6mkm4k2mk2m2hvh8c10n166c47h3k4m2c4k2mk2m23v4h2m34c48h3k8m2kmk2m3vh11c10n6c13v19c43hmk",
  "m2k6mkmhv6c10n6c20n28c27h2cmkm2k4mk5m4c10n2p3vBa7h185c44h3k9mk2mv100c32j32f10n9p12c8h2ch2c8hc",
  "2hc24h6kc2k2c2mkmhkhkm3v9c10n70c8h2c39h3k4m2c2m4kmhvhk27ch10m40h6mkh4m8vm8ch6m2k3m46h13mk2m3v",
  "h5v13c73h7c10v86cmk3mkmk88c33hv14c10n6c9hc37hk7mc6mkmh5v10c10n19p3c2v30h2c22mck7mk2mk2m73c7hc",
  "2hc38h6m3cmc2mc7mhm8c10n6c6hc2hc32h5kc2mc2kmkmh7c10n6c41hg2h4c10n246c19h2m2k2v7c2mhk13hc34h2k",
  "5m3c2kmkm13v10nm85ch15c21p8Ba4x17Ba13cv922h102c111oc5v11c196h2636c97h2v13c1072h16bm6h15m10c",
  "3995h5c583h6841c30h12m3k3m10n1734c569h7c31hc10n4c2v79hc10n6c30h2c5mv10c48h7m5v4Ba4gvBa10c10nc",
  "7pc21h5c19h432c3g40h2g3v10n198c32j32f23p4v5c25j2c25f44c75h4cmh55k7c4m13g64c2gvgm11c2k2g3o9c",
  "7382h41c32h97c115h8701c4gc7gc2gc291h15ch29c3h2ch14c4h8c396h2308c107h5c13h3c9h7c10h2cBa2mv4b",
  "3932c240Ba10n3Ba3c436Ba6c23Ba15c16Baz15c46m2c23m9c116Ba60c246Ba10c39Ba2c60Ba2k3m3Ba6k8b8m2Ba",
  "7m30Ba4m61Ba21c66Ba3mBa122c20p12c20p12c87Ba9c25p135c26j26f26j7fc18f26j26fjc2j2cj2c2j2c4jc8j4f",
  "cfc7fc11f26j26f2jc4j2c8jc7jc26f2jc4jc5jcj3c7jc26f26j26f26j26f26j26f26j26f26j26f26j28f2c25jz",
  "25fz6f25jz25fz6f25jz25fz6f25jz25fz6f25jz25fz6fjf2c50n512Ba55m4Ba50m8Bam14Bam2Ba5v15c5mc15m",
  "1104c10fh20f6c6f213c7mc17m2c7mc2mc5m5c62g33cm112c45h3c7m7g2c10n4chBa320c30hm17c44h4m10n5cx",
  "464c27hg4m10n214c30h2mh10n4cv192c31hc3hm2hm7h2m5hm8chg224c7hc4hc2hc15hc197h2c9p7m41c34j34f7mg",
  "4c10n4c2v785c59pBa3px4p76c45pBa15p194c4hc27hc2hch2chc10hc4hchch6ch4chchchc3hc2hch2chchchchchc",
  "2hch2c4hc7hc4hc4hchc10hc17h5c3hc5hc17h52c2z270c44Ba4c100Ba12c15Ba2c15Bac15Bac37Ba10c13p161Ba",
  "56c29Ba13c44Ba4c9Ba7c2Ba14c6Ba154c251Ba5y729Ba3c17Ba3c13Ba3c218Ba6c12Ba4cBa15c12Ba4c56Ba8c",
  "10Ba6c40Ba8c30Ba2c12Ba4c2Ba14c9z39c344Ba8c14Ba2c13Ba3c11Ba3c57BacBa4c16Ba2c12Ba4c10Ba7c147Bac",
  "92Ba10nBa1029c42720h32c4382h2c5774h2c7473h15c622h2466c542h1506c4939h5c8490h707463cb30c96b128c",
  "240m65040c65534d2c65534d2c"]

def runs : Runs := .ofLines lines

def ofCode (code : Nat) : String := names[runs.number code]?.getD ""

def groups : List String := ["c", "l", "lc", "m", "n", "p", "s", "z"]

def short? (name : String) : Option String :=
  if names.contains name || groups.contains name then some name else otherNames.lookup name

def holds (name : String) (code : Nat) : Bool :=
  let c := ofCode code
  if name == "lc" then c == "lu" || c == "ll" || c == "lt"
  else name == c || (name.length == 1 && name.toList.head? == c.toList.head?)

end Category

end PrintLang
