import EncounterTimeline.Text.CharSet

/-! # Scripts

The characters of each script, and those that several scripts share. The names are in lower case and
without separators; the tables are packed ranges of code points.
-/
namespace EncounterTimeline.Text.Script

def table? (name : String) : Option String :=
  match name with
  | "adlm" | "adlam" => some
    "1e900-4b 4-9 4-1"
  | "ahom" => some
    "11700-1a 2-e 4-16"
  | "hluw" | "anatolianhieroglyphs" => some
    "14400-246"
  | "arab" | "arabic" => some
    ("600-4 1-5 1-d 1-2 1-1f 1-9 b-19 1-6b 1-21 50-2f f0-1e 1-1 5-4a 1-1c f250-72 10-16a " ++
    "2-4f 2-35 7 20-f 70-4 1-86 f63-1e 43-2 37-3 df00-3 1-1a 1-1 1 2 1-9 1-3 1 1 6 4 1 1 " ++
    "1-2 1-1 1 2 1 1 1 1 1-1 1 2-3 1-6 1-3 1-3 1 1-9 1-10 5-2 1-4 1-10 34-1")
  | "armn" | "armenian" => some
    "531-25 2-31 2-2 f583-4"
  | "avst" | "avestan" => some
    "10b00-35 3-6"
  | "bali" | "balinese" => some
    "1b00-4c 3-2e"
  | "bamu" | "bamum" => some
    "a6a0-57 c108-238"
  | "bass" | "bassavah" => some
    "16ad0-1d 2-5"
  | "batk" | "batak" => some
    "1bc0-33 8-3"
  | "beng" | "bengali" => some
    "980-3 1-7 2-1 2-15 1-6 1 3-3 2-8 2-1 2-3 8 4-1 1-4 2-18"
  | "bhks" | "bhaiksuki" => some
    "11c00-8 1-2c 1-d a-1c"
  | "bopo" | "bopomofo" => some
    "2ea-1 2e19-2a 70-1f"
  | "brah" | "brahmi" => some
    "11000-4d 4-23 9"
  | "brai" | "braille" => some
    "2800-ff"
  | "bugi" | "buginese" => some
    "1a00-1b 2-1"
  | "buhd" | "buhid" => some
    "1740-13"
  | "cans" | "canadianaboriginal" => some
    "1400-27f 230-45 101ba-f"
  | "cari" | "carian" => some
    "102a0-30"
  | "aghb" | "caucasianalbanian" => some
    "10530-33 b"
  | "cakm" | "chakma" => some
    "11100-34 1-11"
  | "cham" => some
    "aa00-36 9-d 2-9 2-3"
  | "cher" | "cherokee" => some
    "13a0-55 2-5 9772-4f"
  | "chrs" | "chorasmian" => some
    "10fb0-1b"
  | "zyyy" | "common" => some
    ("0-40 1a-5 1a-2e 1-e 1-4 17 1f 1c1-26 5-4 2-13 74 9 6 1 27d 6 e 3 20 9c 204 81-1 4d9 " ++
    "195-3 122 5ef-2 47-1 cb-1 1 4cd d 7-3 1-5 1-2 2 305-b 2-56 1-a 3-a 1-e 11-20 3f-25 " ++
    "1-2 2-5 1-1a 1-10 29-2 4-296 19-a 15-39f 100-273 2-1f 1-68 200-5d 192-14 1 1-18 f-7 " ++
    "4-3 5b-1 3 5a-1 93-f 20-23 b 30-3f 1f-50 2f 58-a7 19c0-3f 5900-21 66-2 a5-9 f4 a0 " ++
    "18b e-1 51d2-1 d0-9 16-22 1-12 1-3 93 1-1f 1a-5 1a-a a 2d-1 40-6 1-6 a-4 102-2 4-2c " ++
    "3-8 50-c 33-2c e4-1a b9a4-3 f5c-f9 6-1b3 9c-73 3c-f5 a-26 2-3d 3-10 8-1 7-1d 4-3c " ++
    "d5-13 c-13 c-56 9-18 87-54 1-46 1-1 2 2-1 2-3 1-b 1 1-6 1-40 1-3 2-7 1-6 1-1b 1-3 " ++
    "1-4 1 3-6 1-153 2-123 2-31 1471-43 4c-3c 2c2-2b 4-63 c-e 2-e 1-e 1-24 a-ad 38-19 1-1 " ++
    "d-2b 4-8 7-1 e-5 9a-3d7 4-10 3-c 3-76 4-5e 6-b 4 f-b 4-37 8-9 6-27 8-1d 2-b 4-1 " ++
    "3e-153 c-d 2-c 3-9 5-37 7-e 2-a 6-8 7-92 1-65 c0407 1e-5f")
  | "copt" | "coptic" | "qaac" => some
    "3e2-d 2890-73 5-6"
  | "xsux" | "cuneiform" => some
    "12000-399 66-6e 1-4 b-c3"
  | "cprt" | "cypriot" => some
    "10800-5 2 1-2b 1-1 3 2"
  | "cpmn" | "cyprominoan" => some
    "12f90-62"
  | "cyrl" | "cyrillic" => some
    "400-84 2-a8 1750-a a0 4c 1067-1f 7840-5f 578e-1 e200-3d 21"
  | "dsrt" | "deseret" => some
    "10400-4f"
  | "deva" | "devanagari" => some
    "900-50 4-e 2-19 9f60-1f 7200-9"
  | "diak" | "divesakuru" => some
    "11900-6 2 2-7 1-1 1-1d 1-1 2-b 9-9"
  | "dogr" | "dogra" => some
    "11800-3b"
  | "dupl" | "duployan" => some
    "1bc00-6a 5-c 3-8 7-9 2-3"
  | "egyp" | "egyptianhieroglyphs" => some
    "13000-455 a-f9a"
  | "elba" | "elbasan" => some
    "10500-27"
  | "elym" | "elymaic" => some
    "10fe0-16"
  | "ethi" | "ethiopic" => some
    ("1200-48 1-3 2-6 1 1-3 2-28 1-3 2-20 1-3 2-6 1 1-3 2-e 1-38 1-3 2-42 2-1f 3-19 " ++
    "19e6-16 9-6 1-6 1-6 1-6 1-6 1-6 1-6 1-6 7d22-5 2-5 2-5 9-6 1-6 13cb1-6 1-3 1-1 1-e")
  | "gara" | "garay" => some
    "10d40-25 3-1c 8-1"
  | "geor" | "georgian" => some
    "10a0-25 1 5 2-2a 1-3 b90-2a 2-2 1040-25 1 5"
  | "glag" | "glagolitic" => some
    "2c00-5f 1b3a0-6 1-10 2-6 1-1 1-4"
  | "goth" | "gothic" => some
    "10330-1a"
  | "gran" | "grantha" => some
    "11300-3 1-7 2-1 2-15 1-6 1-1 1-4 2-8 2-1 2-2 2 6 5-6 2-6 3-4"
  | "grek" | "greek" => some
    ("370-3 1-2 2-3 1 4 1 1-2 1 1-13 1-3e e-f 1926-4 32-4 4-4 54 140-15 2-5 2-25 2-5 2-7 1 " ++
    "1 1 1-1e 2-34 1-e 1-d 2-5 1-12 2-2 1-8 127 8a3e 55da-4e 11 d05f-45")
  | "gujr" | "gujarati" => some
    "a81-2 1-8 1-2 1-15 1-6 1-1 1-4 2-9 1-2 1-2 2 f-3 2-b 7-6"
  | "gong" | "gunjalagondi" => some
    "11d60-5 1-1 1-24 1-1 1-5 7-9"
  | "guru" | "gurmukhi" => some
    "a01-2 1-5 4-1 2-15 1-6 1-1 1-1 1-1 2 1-4 4-1 2-2 3 7-3 1 7-10"
  | "gukh" | "gurungkhema" => some
    "16100-39"
  | "hani" | "han" => some
    ("2e80-19 1-58 c-d5 2f 1 19-8 e-3 3c4-19bf 40-51ff 5900-16d 2-69 7508-1 c-1 900e-a6df " ++
    "20-1039 6-dd 2-1681 e-1d30 f-26d 9a2-21d 5e2-134a 5-105f")
  | "hang" | "hangul" => some
    "1100-ff 1e2e-1 101-5d 71-1e 41-1e 76e1-1c 283-2ba3 c-16 4-30 27a4-1e 3-5 2-5 2-5 2-2"
  | "rohg" | "hanifirohingya" => some
    "10d00-27 8-9"
  | "hano" | "hanunoo" => some
    "1720-14"
  | "hatr" | "hatran" => some
    "108e0-12 1-1 5-4"
  | "hebr" | "hebrew" => some
    "591-36 8-1a 4-5 f528-19 1-4 1 1-1 1-1 1-9"
  | "hira" | "hiragana" => some
    "3041-55 6-2 17f61-11e 12 1d-2 40ad"
  | "armi" | "imperialaramaic" => some
    "10840-15 1-8"
  | "zinh" | "inherited" | "qaai" => some
    ("300-6f 115-1 1c4-a 1a 2e0-3 115b-1e 201-2 1-c 1-6 4 6 3-1 c6-3f 20c-1 c2-20 f39-3 " ++
    "6b-1 cd65-f 10-d 3cf e2 105a bbc4-2d 2-16 220-2 11-7 2-6 1e-3 c2f52-ef")
  | "phli" | "inscriptionalpahlavi" => some
    "10b60-12 5-7"
  | "prti" | "inscriptionalparthian" => some
    "10b40-15 2-7"
  | "java" | "javanese" => some
    "a980-4d 2-9 4-1"
  | "kthi" | "kaithi" => some
    "11080-42 a"
  | "knda" | "kannada" => some
    "c80-c 1-2 1-16 1-9 1-4 2-8 1-2 1-3 7-1 6-1 1-3 2-9 1-2"
  | "kana" | "katakana" => some
    "30a1-59 2-2 f0-f d0-2e 1-57 cc0e-9 1-2c b052-3 1-6 1-1 1 11f-2 32 e-3"
  | "kawi" => some
    "11f00-10 1-28 3-1c"
  | "kali" | "kayahli" => some
    "a900-2d 1"
  | "khar" | "kharoshthi" => some
    "10a00-3 1-1 5-7 1-2 1-1c 2-2 4-9 7-8"
  | "kits" | "khitansmallscript" => some
    "16fe4 1b1b-1d5 29"
  | "khmr" | "khmer" => some
    "1780-5d 2-9 6-9 1e6-1f"
  | "khoj" | "khojki" => some
    "11200-11 1-2e"
  | "sind" | "khudawadi" => some
    "112b0-3a 5-9"
  | "krai" | "kiratrai" => some
    "16d40-39"
  | "laoo" | "lao" => some
    "e81-1 1 1-4 1-17 1 1-16 2-4 1 1-6 1-9 2-3"
  | "latn" | "latin" => some
    ("41-19 6-19 2f f 5-16 1-1e 1-1c0 27-4 1a1b-25 6-30 5-3 5-c 1-45 41-ff 171 d 10-c 8d-1 " ++
    "6 1b 11-28 ad7-1f 7aa2-65 3-42 2-1 1 1-7 15-d 330-2a 1-8 1-3 4f96-6 41a-19 6-19 " ++
    "825-5 1-29 1-8 d745-1e 6-5")
  | "lepc" | "lepcha" => some
    "1c00-37 3-e 3-2"
  | "limb" | "limbu" => some
    "1900-1e 1-b 4-b 4 3-b"
  | "lina" | "lineara" => some
    "10600-136 9-15 a-7"
  | "linb" | "linearb" => some
    "10000-b 1-19 1-12 1-1 1-e 2-d 22-7a"
  | "lisu" => some
    "a4d0-2f 7ab0"
  | "lyci" | "lycian" => some
    "10280-1c"
  | "lydi" | "lydian" => some
    "10920-19 5"
  | "mahj" | "mahajani" => some
    "11150-26"
  | "maka" | "makasar" => some
    "11ee0-18"
  | "mlym" | "malayalam" => some
    "d00-c 1-2 1-32 1-2 1-5 4-f 2-19"
  | "mand" | "mandaic" => some
    "840-1b 2"
  | "mani" | "manichaean" => some
    "10ac0-26 4-b"
  | "marc" | "marchen" => some
    "11c70-1f 2-15 1-d"
  | "gonm" | "masaramgondi" => some
    "11d00-6 1-1 1-2b 3 1-1 1-8 8-9"
  | "medf" | "medefaidrin" => some
    "16e40-5a"
  | "mtei" | "meeteimayek" => some
    "aae0-16 c9-2d 2-9"
  | "mend" | "mendekikakui" => some
    "1e800-c4 2-f"
  | "merc" | "meroiticcursive" => some
    "109a0-17 4-13 2-2d"
  | "mero" | "meroitichieroglyphs" => some
    "10980-1f"
  | "plrd" | "miao" => some
    "16f00-4a 4-38 7-10"
  | "modi" => some
    "11600-44 b-9"
  | "mong" | "mongolian" => some
    "1800-1 2 1-13 6-58 7-2a fdb5-c"
  | "mroo" | "mro" => some
    "16a40-1e 1-9 4-1"
  | "mult" | "multani" => some
    "11280-6 1 1-3 1-e 1-a"
  | "mymr" | "myanmar" => some
    "1000-9f 9940-1e 61-1f 6c50-13"
  | "nbat" | "nabataean" => some
    "10880-1e 8-8"
  | "nagm" | "nagmundari" => some
    "1e4d0-29"
  | "nand" | "nandinagari" => some
    "119a0-7 2-2d 2-a"
  | "talu" | "newtailue" => some
    "1980-2b 4-19 6-a 3-1"
  | "newa" => some
    "11400-5b 1-4"
  | "nkoo" | "nko" => some
    "7c0-3a 2-2"
  | "nshu" | "nushu" => some
    "16fe1 418e-18b"
  | "hmnp" | "nyiakengpuachuehmong" => some
    "1e100-2c 3-d 2-9 4-1"
  | "ogam" | "ogham" => some
    "1680-1c"
  | "olck" | "olchiki" => some
    "1c50-2f"
  | "onao" | "olonal" => some
    "1e5d0-2a 4"
  | "hung" | "oldhungarian" => some
    "10c80-32 d-32 7-5"
  | "ital" | "olditalic" => some
    "10300-23 9-2"
  | "narb" | "oldnortharabian" => some
    "10a80-1f"
  | "perm" | "oldpermic" => some
    "10350-2a"
  | "xpeo" | "oldpersian" => some
    "103a0-23 4-d"
  | "sogo" | "oldsogdian" => some
    "10f00-27"
  | "sarb" | "oldsoutharabian" => some
    "10a60-1f"
  | "orkh" | "oldturkic" => some
    "10c00-48"
  | "ougr" | "olduyghur" => some
    "10f70-19"
  | "orya" | "oriya" => some
    "b01-2 1-7 2-1 2-15 1-6 1-1 1-4 2-8 2-1 2-2 7-2 4-1 1-4 2-11"
  | "osge" | "osage" => some
    "104b0-23 4-23"
  | "osma" | "osmanya" => some
    "10480-1d 2-9"
  | "hmng" | "pahawhhmong" => some
    "16b00-45 a-9 1-6 1-14 5-12"
  | "palm" | "palmyrene" => some
    "10860-1f"
  | "pauc" | "paucinhau" => some
    "11ac0-38"
  | "phag" | "phagspa" => some
    "a840-37"
  | "phnx" | "phoenician" => some
    "10900-1b 3"
  | "phlp" | "psalterpahlavi" => some
    "10b80-11 7-3 c-6"
  | "rjng" | "rejang" => some
    "a930-23 b"
  | "runr" | "runic" => some
    "16a0-4a 3-a"
  | "samr" | "samaritan" => some
    "800-2d 2-e"
  | "saur" | "saurashtra" => some
    "a880-45 8-b"
  | "shrd" | "sharada" => some
    "11180-5f"
  | "shaw" | "shavian" => some
    "10450-2f"
  | "sidd" | "siddham" => some
    "11580-35 2-25"
  | "sgnw" | "signwriting" => some
    "1d800-28b f-4 1-e"
  | "sinh" | "sinhala" => some
    "d81-2 1-11 3-17 1-8 1 2-6 3 4-5 1 1-7 6-9 2-2 103ec-13"
  | "sogd" | "sogdian" => some
    "10f30-29"
  | "sora" | "sorasompeng" => some
    "110d0-18 7-9"
  | "soyo" | "soyombo" => some
    "11a50-52"
  | "sund" | "sundanese" => some
    "1b80-3f 100-7"
  | "sunu" | "sunuwar" => some
    "11bc0-21 e-9"
  | "sylo" | "sylotinagri" => some
    "a800-2c"
  | "syrc" | "syriac" => some
    "700-d 1-3b 2-2 110-a"
  | "tglg" | "tagalog" => some
    "1700-15 9"
  | "tagb" | "tagbanwa" => some
    "1760-c 1-2 1-1"
  | "tale" | "taile" => some
    "1950-1d 2-4"
  | "lana" | "taitham" => some
    "1a20-3e 1-1c 2-a 6-9 6-d"
  | "tavt" | "taiviet" => some
    "aa80-42 18-4"
  | "takr" | "takri" => some
    "11680-39 6-9"
  | "taml" | "tamil" => some
    "b82-1 1-5 3-2 1-3 3-1 1 1-1 3-1 3-2 3-b 4-4 3-2 1-3 2 6 e-14 113c5-31 d"
  | "tnsa" | "tangsa" => some
    "16a70-4e 1-9"
  | "tang" | "tangut" => some
    "16fe0 1f-17f7 8-2ff 200-8"
  | "telu" | "telugu" => some
    "c00-c 1-2 1-16 1-f 2-8 1-2 1-3 7-1 1-2 2 2-3 2-9 7-8"
  | "thaa" | "thaana" => some
    "780-31"
  | "thai" => some
    "e01-39 5-1b"
  | "tibt" | "tibetan" => some
    "f00-47 1-23 4-26 1-23 1-e 1-6 4-1"
  | "tfng" | "tifinagh" => some
    "2d30-37 7-1 e"
  | "tirh" | "tirhuta" => some
    "11480-47 8-9"
  | "todr" | "todhri" => some
    "105c0-33"
  | "toto" => some
    "1e290-1e"
  | "tutg" | "tulutigalari" => some
    "11380-9 1 2 1-25 1-9 1 2 1-3 1-9 1-1 8-1"
  | "ugar" | "ugaritic" => some
    "10380-1d 1"
  | "vaii" | "vai" => some
    "a500-12b"
  | "vith" | "vithkuqi" => some
    "10570-a 1-e 1-6 1-1 1-a 1-e 1-6 1-1"
  | "wcho" | "wancho" => some
    "1e2c0-39 5"
  | "wara" | "warangciti" => some
    "118a0-52 c"
  | "yezi" | "yezidi" => some
    "10e80-29 1-2 2-1"
  | "yiii" | "yi" => some
    "a000-48c 3-36"
  | "zanb" | "zanabazarsquare" => some
    "11a00-47"
  | _ => none

def sharedTable (name : String) : String :=
  match name with
  | "adlm" | "adlam" =>
    "61f 20"
  | "arab" | "arabic" =>
    "60c e 3 20 a-a 1a f6cd-1 5a0-1b"
  | "beng" | "bengali" =>
    "951-1 11-1 136a 1 2-1 1 8 8 2 4 2-2 8bf9"
  | "bopo" | "bopomofo" =>
    "3001-2 4-9 1-c a-3 2 6 c3 cd49-1 11a-4"
  | "bugi" | "buginese" =>
    "a9cf"
  | "buhd" | "buhid" =>
    "1735-1"
  | "cakm" | "chakma" =>
    "9e6-9 650-9"
  | "copt" | "coptic" | "qaac" =>
    "102e0-1b"
  | "cprt" | "cypriot" =>
    "10100-2 4-2c 3-8"
  | "cpmn" | "cyprominoan" =>
    "10100-1"
  | "cyrl" | "cyrillic" =>
    "485-1 1971 104a"
  | "deva" | "devanagari" =>
    "951-1 11-1 136a-26 1-1 3f6 873f-9"
  | "dogr" | "dogra" =>
    "964-b 9ec0-9"
  | "dupl" | "duployan" =>
    "1bca0-3"
  | "geor" | "georgian" =>
    "10fb"
  | "glag" | "glagolitic" =>
    "484 2 29bb 782b"
  | "gran" | "grantha" =>
    "951-1 11-1 280-d 10dc 1-1 1e-2 3-1 3f6 f24a c94-1 1"
  | "grek" | "greek" =>
    "342 2 1a7a-1"
  | "gujr" | "gujarati" =>
    "951-1 11-1 9eca-9"
  | "gong" | "gunjalagondi" =>
    "964-1"
  | "guru" | "gurmukhi" =>
    "951-1 11-1 9eca-9"
  | "hani" | "han" =>
    "3001-2 2 1-9 1-c a-3 2 6 4-3 bb 94-f 20-23 3c-27 38-30 f-b 33 58-18 a-4 60-1e 7301-7 " ++
    "573d-1 11a-4 d3fa-11 1ede-1"
  | "hang" | "hangul" =>
    "3001-2 4-9 1-c 10 6 c3 cd49-1 11a-4"
  | "rohg" | "hanifirohingya" =>
    "60c e 3 20 93"
  | "hano" | "hanunoo" =>
    "1735-1"
  | "hira" | "hiragana" =>
    "3001-2 4-9 1-c 10-5 1 4-1 5b-3 3 5a-1 cd48-1 11a-4 a 2d-1"
  | "java" | "javanese" =>
    "a9cf"
  | "kthi" | "kaithi" =>
    "966-9 9ec0-9"
  | "knda" | "kannada" =>
    "951-1 11-1 136a 1 7 17 1 8b3b-5"
  | "kana" | "katakana" =>
    "3001-2 4-9 1-c 10-5 1 4-1 5b-3 3 5a-1 cd48-1 11a-4 a 2d-1"
  | "kali" | "kayahli" =>
    "a92e"
  | "khoj" | "khojki" =>
    "ae6-9 9d40-9"
  | "sind" | "khudawadi" =>
    "964-1 9eca-9"
  | "latn" | "latin" =>
    "363-c 115-1 4ca-1 7a8 f33 c0 860f-7 226"
  | "limb" | "limbu" =>
    "965"
  | "lina" | "lineara" =>
    "10107-2c"
  | "linb" | "linearb" =>
    "10100-2 4-2c 3-8"
  | "mahj" | "mahajani" =>
    "964-b 9ec0-9"
  | "mlym" | "malayalam" =>
    "951-1 11-1 1374 8b55-2"
  | "mand" | "mandaic" =>
    "640"
  | "mani" | "manichaean" =>
    "640"
  | "gonm" | "masaramgondi" =>
    "964-1"
  | "modi" =>
    "a830-9"
  | "mong" | "mongolian" =>
    "1802-1 1 829"
  | "mult" | "multani" =>
    "a66-9"
  | "mymr" | "myanmar" =>
    "a92e"
  | "nand" | "nandinagari" =>
    "964-1 380-9 ff9 8 7 8b35-5"
  | "nkoo" | "nko" =>
    "60c e 3 f71e-1"
  | "perm" | "oldpermic" =>
    "483"
  | "ougr" | "olduyghur" =>
    "640 104b1"
  | "orya" | "oriya" =>
    "951-1 11-1 1374 17"
  | "phag" | "phagspa" =>
    "1802-1 1"
  | "phlp" | "psalterpahlavi" =>
    "640"
  | "shrd" | "sharada" =>
    "951 1385 1 2-1 2"
  | "sinh" | "sinhala" =>
    "964-1"
  | "sogd" | "sogdian" =>
    "640"
  | "sylo" | "sylotinagri" =>
    "964-1 80-9"
  | "syrc" | "syriac" =>
    "60c e-1 2 20 a-a 1a 1787 1"
  | "tglg" | "tagalog" =>
    "1735-1"
  | "tagb" | "tagbanwa" =>
    "1735-1"
  | "tale" | "taile" =>
    "1040-9"
  | "takr" | "takri" =>
    "964-1 9eca-9"
  | "taml" | "tamil" =>
    "951-1 11-1 1374 8c18 6a0d 1 37-1"
  | "telu" | "telugu" =>
    "951-1 11-1 1374 17"
  | "thaa" | "thaana" =>
    "60c e-1 2 40-9 f788 a"
  | "tirh" | "tirhuta" =>
    "951-1 11-1 138c 8b3d-9"
  | "yezi" | "yezidi" =>
    "60c e 3 40-9"
  | "yiii" | "yi" =>
    "3001-1 5-9 2-7 df ce65-4"
  | _ => ""

/-- The characters of the common and of the inherited script that particular scripts use, packed. -/
def claimedTable (name : String) : String :=
  match name with
  | "zyyy" | "common" =>
    "60c e 3 20 323-1 795 639-1 cb-1 1 4cd d 7-3 1-5 1-2 2 334 e13 1bd-2 2 1-9 1-c 10-5 1 " ++
    "4-3 5b-1 3 5a-1 93-f 20-23 3c-27 38-30 f-b 33 58-18 a-4 60-1e 7301-7 128-9 f4 a0 " ++
    "536e-1 105-1 11a-4 a 2d-1 160-2 4-2c 3-8 1a1-1a b9a4-3 16bc-11 1ede-1"
  | "zinh" | "inherited" | "qaai" =>
    "342 2 1d-c 115-1 1c4-a 1a 2e0-1 137d-2 1-c 1-6 4 6 3-1 c6-1 36 1 2f5 f39-3 6b-1 d245 " ++
    "105a"
  | _ => ""

def named? (name : String) : Option CharSet := (table? name).map CharSet.unpack

def extended? (name : String) : Option CharSet :=
  (named? name).map fun s =>
    (s.union (CharSet.unpack (sharedTable name))).diff (CharSet.unpack (claimedTable name))

end EncounterTimeline.Text.Script
