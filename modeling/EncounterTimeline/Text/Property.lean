import EncounterTimeline.Text.Category

/-! # Yes-or-no properties of characters

Most of the large properties are a union of general categories and a short list of exceptions; the others
are tables of their own. The names are in lower case and without separators.
-/
namespace EncounterTimeline.Text.Property

def otherAlphabetic : String :=
  "345 26a-d 1 1-1 1-1 1 48-a 30-c 1-6 10 65-6 4-3 2-1 4 23 1e-f 66-a 65-1 3-8 1-2 1-3 6a " ++
  "3c-b 3-6 6-13 36-1 2-e 1-1 5-2 a-1 1d-2 3a-6 2-1 2-1 a a-1 1d-2 3a-4 4-1 2-1 4 1e-1 3 " ++
  "b-2 3a-7 1-2 1-1 15-1 16-2 4-2 3a-6 2-1 2-1 9-1 a-1 1e 3b-4 3-2 1-2 a 28-4 39-6 1-2 " ++
  "1-2 8-1 b-1 1d-2 3a-6 1-2 1-2 8-1 b-1 f c-3 3a-6 1-2 1-2 a a-1 1d-2 4b-5 1 1-7 12-1 3d " ++
  "2-6 12 63 2-5 1-1 10 a3-12 9-a 1-23 6e-b 1 2-3 17-3 4-2 1-2 2-6 3-3 d-b 1 a-3 674-1 " ++
  "1e-1 1e-1 1e-1 42-12 bc-1 22 76-b 4-8 de-4 39-9 2-13 4a-1 b-2 31-4 30-e 3c-2 1e-8 2-1 " ++
  "39-a 32-12 1b0-d 6c1-33 8f6-1f 7874-7 22-1 162 8 17-4 58-1 32-f 1 39 26-4 1c-b 2d-3 " ++
  "30-b 25 43-d c 8-1 2d-2 32 1-2 2-1 5 2c-4 5 ed-7 4f33 857-4 686-2 1-1 5-3 314-3 41 " ++
  "141-1 153-2 35-d 2d-1 b-2 2d-8 9 3d-2 24-b 12-1 39-2 30-c e-1 5c-8 2 6 2 9d-9 17-3 " ++
  "3a-6 2-1 2-1 a a-1 54-8 1 2 1-3 1-1 67-c 1-2 6a-11 ed-6 2-6 1d-1 52-e 1 6a-a 67-d " ++
  "101-c f7-5 1-1 2-1 3 1 8e-6 2-5 4 1c-9 2a-4 1-3 12-a 2e-d 197-7 1-6 53-15 1-d 7a-5 3 " ++
  "1-1 1-2 1 3 42-4 1-1 1-3 15c-3 9-1 1 30-6 3-2 41dd-10 e20 1-36 7-3 5d-1 4cac 2361-6 " ++
  "1-10 2-6 1-1 1-4 64 8b7 7e8-19 6-19 6-19"

def otherLowercase : String :=
  "aa f 1f5-8 7-1 1e-4 60 34 d81 c2f-3e d 22-24 2b1 d 10-c d3-f 350-19 792-1 7a1e-1 d2 " ++
  "81-2 3-1 362-3 9 5c16 2-2 1-29 1-8 d875-3d"

def otherUppercase : String :=
  "2160-f 346-19 1cc60-19 6-19 6-19"

def otherGraphemeExtend : String :=
  "9be 18 166 18 66 18 ea 12-1 67 18 77 f d55 4d6 1021-1 cf6e-1 139e 18 158 c f1 380 b834 " ++
  "8-4 c2ead-5f"

def caseIgnorableMarks : String :=
  "27 6 b 7c 2cf 1d7 94 1a23-1 a 2 ddeb 3e 2 b1 6 b"

def otherIdStart : String :=
  "1885-1 891 15 f6c-1"

def otherIdContinue : String :=
  "b7 2cf fe1-8 668"

def idStartExcluded : String :=
  "2e2f"

def startUnstable : String :=
  "37a ab8 7f 21e7-1 cbc1-5 196-1 74 1 1 1 1 1 1 1 11f-1"

def continueUnstable : String :=
  "37a 2d20-1 cbc1-5 196-1 74 1 1 1 1 1 1 1"

def otherMath : String :=
  "5e 371-2 2 1a-1 2-1 1c20 1b-2 b 20-3 18-1 e-1 41-c 4 3-1 4-4 12 4 2-9 1 3-4 6 3-1 2-1 " ++
  "1-2 1-5 3-3 5-4 4b-4 2-3 1-1 1-1 1 1-4 2-1 4-1 4-11 2-1 1 1-6 1 6-1 122-3 a8-1 1 18 11 " ++
  "1bd-1 c-8 5-4 5-1 2-1 3-4 e 1 2-5 18-1 39 1 1d-3 9-1 156-1 1f-9 193-15 3f-3 20-1 d463 " ++
  "1 4 d3 1 d4c1-54 1-46 1-1 2 2-1 2-3 1-b 1 1-6 1-40 1-3 2-7 1-6 1-1b 1-3 1-4 1 3-6 " ++
  "1-153 2-18 1-18 1-1e 1-18 1-1e 1-18 1-1e 1-18 1-1e 1-18 1-7 2-31 1600-3 1-1a 1-1 1 2 " ++
  "1-9 1-3 1 1 6 4 1 1 1-2 1-1 1 2 1 1 1 1 1-1 1 2-3 1-6 1-3 1-3 1 1-9 1-10 5-2 1-4 1-10"

def lowerStable : String :=
  "3d2-2 1d2d 4 3-2 2-2 2 3-4 6 3 3-1 2-1 1 a-1 5 1b2ba-19 1a-19 1a-19 1a 1-1 2 2-1 2-3 " ++
  "1-7 1a-19 1a-1 1-3 2-7 1-6 1b-1 1-3 1-4 1 3-6 1b-19 1a-19 1a-19 1a-19 1a-19 1a-19 " ++
  "1e-18 21-18 21-18 21-18 21-18 21"

def lowerExtra : String :=
  "2160-f 346-19"

def upperStable : String :=
  "aa f 7d 54 d e-1 e 3 62 12-5 1b 2 1 2-2 2 1 2 5-1 1 2-1 1-6 1-1 1 2-2 6-4 1 1-7 2-19 " ++
  "7-1 1e-4 95 81 163 27 b73 c03-78 1-2 1-f 1-30 dc-1 1 1d1 d 10-c 6d 3-1 3 1b 4 4 2-1 " ++
  "8-3 b27 2 2-6 66 79b7-1 92-1 3e-8 15 6 19 23 1 1c-2 3-2 335-22 1-6 1-d 5c16 2-2 1-29 " ++
  "1-8 cc5f-19 1a-6 1-11 1a-19 1a-3 1 1-6 1-a 1a-19 1a-19 1a-19 1a-19 1a-19 1a-19 1a-19 " ++
  "1a-19 1a-1b 1c-18 1-5 1a-18 1-5 1a-18 1-5 1a-18 1-5 1a-18 1-5 1 734-9 1-13 6-5 105-3d"

def upperExtra : String :=
  "1c5 2 2 26 1d95-7 8-7 8-7 c f 2f"

def titleStable : String :=
  "1c5 2 2 26 edd-2a 2-2 e88-7 8-7 8-7 c f 2f"

def titleExtra : String :=
  "1c4 2 2 26"

def foldStable : String :=
  "13a0-55"

def foldExtra : String :=
  "b5 29 69 35 1c5 7c d-1 3-1 19-1 3 191 e70-5 882-8 211-1 e4-7 8-7 8-7 a-2 2 a-2 2 2a-2 " ++
  "2 8b78-4f 4f40-6 c-4"

def table? (name : String) : Option String :=
  match name with
  | "ahex" | "asciihexdigit" => some
    "30-9 7-5 1a-5"
  | "bidic" | "bidicontrol" => some
    "61c 19f1-1 1a-4 37-3"
  | "bidim" | "bidimirrored" => some
    ("28-1 12 1 1c 1 1d 1 2d f e7e-3 75d-1 99c-1 a-1 36-1 e-1 b1 c0-3 3-5 3 3-1 3-3 1-3 1 " ++
    "1 4-8 5 1-11 5-3 9-1 1 1-7 2-1e 2-3 5 9-1 2-12 5-1 9-4 2-1 4-17 2-f 8-3 14-1 7-1 " ++
    "43d-d 4a 2-3 1-1 1-2 5-3 5-2 3-d 193-15 2-5 1-d 8 7-5 3 4-4 1-1 2-4 4 1-2 2-1 a-5 " ++
    "2-1 c-12 1-3 2 1 2 1-3 5-1 6-2 18-1 b-1 4-3 1-1 2-1 4-2a 2-7 1-27 5 1 3-4 5-2 4 3-4 " ++
    "1 100 203-3 3-1 1-1 e-1 2-9 2b-7 1ab-9 2-7 ce3d-5 5-1 a2-1 12 1 1c 1 1d 1 1-1 1-1 " ++
    "d777 39 39 39 39")
  | "dash" => some
    "2d 55c 33 e41 405 809-5 3d 27 f 186 c04 2 1f-1 4 1c 1be 13 6f cd90-1 25 a a9 f9f"
  | "di" | "defaultignorablecodepoint" => some
    ("ad 2a1 2cc b42-1 653-1 55-4 7fb-4 1a-4 31-f 10f4 cc9b-f ef a0 4f-8 bca7-3 14cf-7 " ++
    "c2e85-fff")
  | "dep" | "deprecated" => some
    "149 529 903 1 829-1 8c5-5 2b9-1 ddcd6"
  | "dia" | "diacritic" => some
    ("5e 1 47 6 4 2-1 1f7-9e 1-7 5-5 11-1 4 9-1 fd-4 d1 37-10 1-1a 1 1-1 1 86-7 4-1 86-1 " ++
    "4-1 3-2 43-1a 5b-a 3a-a 22-1 7e-7 29-9 10-1b 3d 10 3-3 1c 4a 10 6e 10 6e 10 2f-2 3c " ++
    "10 7 77 6e 10 6e 10 6d-1 10 7c 7c-5 1 6b d-4 4b-1 1b 1 1 4-1 42-2 1-1 3e 70 1-1 28-1 " ++
    "4-4 19-6 1 a-1 2c1-2 3b4-1 b3-a 9 15b-2 139-7 2 30-e 2-a 68 f 26-8 36-1 8a-1 40-5 " ++
    "52-18 4 6 2-2 32-3e 59-b 25-a 1bd 1-2 b-2 d-2 d-2 d-1 cf0-2 13d 1fa-5 69-3 5f 7572 " ++
    "c-1 1 1c-1 52-1 e-21 66-2 6d-1 ca 1b-11 39-3 24 5f c 24 95-2 41-3 33 64-4 9-2 80-1 " ++
    "4f30 301-f 10e 1 2f 2d-1 43 2fc 49f-5 1-29 1-8 32a-1 23b-5 1d5-2 46-a 31-3 c0 29 " ++
    "48-1 78-1 3e 4c 9-2 68-1 b2-1 51 10 18-6 3-4 cd 3 7b-1 fb-1 7e 76-1 73 10d-1 102-1 4 " ++
    "9c 53 12 51 1a5 102 1-1 51 16af-e 369a-4 3b-6 458-10 50-1 3ffe-3 1-6 1-1 1f01-2d " ++
    "2-16 220-2 3-5 8-7 2-6 1e-3 e82-3d c2-6 177 3d-3 5e0-6 6d-2 1-2")
  | "emoji" => some
    ("23 6 5-9 6f 4 1f8d c d8 16 5a-5 f-1 16f-1 c a6 19-a 4-2 c7 e7-1 a 9 3a-3 1-4 9 2 2-1 " ++
    "2 4 2 1-1 2 3 3-1 8-2 5 1 5-b b-1 2 1-1 1 12 2-1 12-5 1 1-1 3-1 5 2-1 4-1 b-1 5-1 2 " ++
    "5-1 1 1-1 14-1 5-5 1-3 2 4 2 2-5 1 2 1 1 6 3 6 a-1 f 2 4 1 4-2 1 b-1 30-2 9 e e " ++
    "174-1 1cf-2 13-1 33 4 4da c 259 1 1bd6a ca a0-1 c-1 e 2-9 4b-19 1-1 17 14 2-8 15-1 " ++
    "ae-21 2-6f 2-1 1-2 2-52 2-2 1-106 1-3e b-5 1-17 7-1 2-7 c 2-3 2 4-1 d-1 2 8-1 9 5-2 " ++
    "c-2 8-2 2 1 4 6 3 6-55 30-45 5-7 2-2 4-9 3 1-1 3 2-9 e3-b 4 11b-2e 1-9 1-b8 70-c 3-8 " ++
    "7-2d 1-6 8-d 4-8 7-8")
  | "ecomp" | "emojicomponent" => some
    "23 6 5-9 1fd3 d5 dd2b f3d6-19 1fb-4 5b0-3 c066c-5f"
  | "emod" | "emojimodifier" => some
    "1f3fb-4"
  | "ebase" | "emojimodifierbase" => some
    ("261d db 10-3 1cc77 3c-2 2 2-2 75-1 2-a 15-12 3 4-2 1-2 7 1 18 c9-1 4 15 4-1 ae-2 3-4 " ++
    "53 10-2 9 b 23f 2 8-7 6 9-9 2-2 38 3d-1 1-1 1 11-2 1-c e5-2 2a-8")
  | "epres" | "emojipresentation" => some
    ("231a-1 cd-3 3 2 209-1 15-1 32-b 2b 13 d 8-1 11-1 5-1 8 5 15 7-1 1 4 2 7 4-1 1c 23 1 " ++
    "4-2 1 3d-2 18 e 35b-1 33 4 1c4ae ca be 2-9 4b-19 1 18 14 2-4 1-2 15-1 ae-20 c-8 1-45 " ++
    "1-15 c-2a 4-4 c-10 3 3-46 1 1-ba 2-3e d-3 1-17 12 1a-1 d 56-54 30-45 6 3-2 2-2 4-3 " ++
    "b-1 7-8 e3-b 4 11b-2e 1-9 1-b8 70-c 3-8 7-2d 1-6 8-d 4-8 7-8")
  | "extpict" | "extendedpictographic" => some
    ("a9 4 1f8d c d8 16 5a-5 f-1 16f-1 c 5f 46 19-a 4-2 c7 e7-1 a 9 3a-3 1-5 1-b 1-71 a-75 " ++
    "2-a 1 1 6 3 6 a-1 f 2 4 1 4-2 1 b-4 2d-2 9 e e 174-1 1cf-2 13-1 33 4 4da c 259 1 " ++
    "1bd66-ff d-2 1f 3c-5 c-1 e 2-9 12-38 1b-e a 14 2-8 1-3 9-1b1 5-13d 8-109 30-7f 74-b " ++
    "55-2a c-3 38-7 a-5 28-7 1e-51 c-2e 1-9 1-1b8 100-3fd")
  | "ext" | "extender" => some
    ("b7 218-1 36e 1b9 35a 2f0 7f 943 38 263 18e 44 1389 2b-4 67-1 5d-2 6f16 5f6 3c2 16 89 " ++
    "6c 15-1 547b 810-1 bda 268-2 4cf 50a9-1 49c-1 1 7158-1 806-2")
  | "grlink" | "graphemelink" => some
    ("94d 7f 7f 7f 7f 7f 7f 7f 6d-1 10 7c 6f 7f c9 b4-1 6d9-1 1e 9d 28d e3 65-1 46-1 118b " ++
    "7a86 25 97 8e 6c 135 f6 5e51 606 29 e 39 79-1 8b 74 b4 62 f4 7f fc 7f 76 74 10d " ++
    "103-1 a1 53 12 51 1a5 104-1 51")
  | "hex" | "hexdigit" => some
    "30-9 7-5 1a-5 fea9-9 7-5 1a-5"
  | "hyphen" => some
    "2d 7f 4dc 127b 809-1 e05 2e3 cd67 a9 57"
  | "idsb" | "idsbinaryoperator" => some
    "2ff0-1 2-9 1f1"
  | "idst" | "idstrinaryoperator" => some
    "2ff2-1"
  | "ideo" | "ideographic" => some
    ("3006-1 19-8 e-2 3c5-19bf 40-51ff 5900-16d 2-69 750a 1b-17f7 8-4d5 2a-8 2467-18b " ++
    "4d04-a6df 20-1039 6-dd 2-1681 e-1d30 f-26d 9a2-21d 5e2-134a 5-105f")
  | "joinc" | "joincontrol" => some
    "200c-1"
  | "loe" | "logicalorderexception" => some
    "e40-4 7b-4 af0-2 2 90fa-1 2 1-1"
  | "nchar" | "noncharactercodepoint" => some
    ("fdd0-1f 20e-1 fffe-1 fffe-1 fffe-1 fffe-1 fffe-1 fffe-1 fffe-1 fffe-1 fffe-1 fffe-1 " ++
    "fffe-1 fffe-1 fffe-1 fffe-1 fffe-1 fffe-1")
  | "patsyn" | "patternsyntax" => some
    ("21-e a-6 1a-3 1 1a-3 22-6 1 1-1 1 1-1 4 4 3 17 1f 1f18-17 8-e 2-12 1-9 131-2cf " ++
    "a0-275 1e-46b 200-7f 181-2 4-18 f cd0d-1 105-1")
  | "patws" | "patternwhitespace" => some
    "9-4 12 64 1f88-1 18-1"
  | "pcm" | "prependedconcatenationmark" => some
    "600-5 d7 31 180-1 50 107da f"
  | "qmark" | "quotationmark" => some
    "22 4 83 f 1f5c-7 19-1 e07 1c9-3 d-2 ce21-3 bd 4 5a-1"
  | "radical" => some
    "2e80-19 1-58 c-d5"
  | "ri" | "regionalindicator" => some
    "1f1e6-19"
  | "sterm" | "sentenceterminal" => some
    ("21 c 10 549 93-2 b4 2b-2 f6 3d 1 3-1 125-1 6e4-1 316 4-1 305 c6-1 cc 5 13a-1 162-3 " ++
    "ae-1 2-1 1d-1 bc-1 41-1 3bc-1 9-2 de4 d 16-1 1ad 74fc 10e-1 e3 3 17e-1 56-1 5f 98-1 " ++
    "93-2 90-1 f9 5266 3-1 a9 c 10 41 af4-1 4fd-4 2c-3 bd-1 75-3 7f-2 81-1 6 10-1 58-1 " ++
    "1-1 6c 1a1-1 175-1 5-e 69-1 f9-2 205 1 fb-1 57-1 1a4-1 2b4-1 4a-1 4b29-1 85 41-1 b " ++
    "353 4e06 1de8")
  | "sd" | "softdotted" => some
    ("69-1 c4 119 1e 34 14 140 62 1 1909 33 d 3 84 9d 1a5 d6-1 b32 1a7a5-1 32-1 32-1 32-1 " ++
    "32-1 32-1 32-1 32-1 32-1 32-1 32-1 32-1 32-1 886 131-1 1a")
  | "term" | "terminalpunctuation" => some
    ("21 a 1 b-1 3 33e 8 201 39 48 e 1-2 b4 2b-a 1 eb-1 36-e 1f 105-1 4f4-1 ac 4-5 137-1 " ++
    "315-7 305 7c-2 47-1 9d-2 3 27-3 2-1 13a-1 162-3 ae-1 1-2 1d-1 bc-4 3e-1 3bc-1 9-2 " ++
    "de4 d 4 a 1-1 3-1 1ac-1 74fb-1 10d-2 e3-4 17e-1 56-1 5f 97-2 93-2 7f 10-1 f9 5264-2 " ++
    "1-3 a9 a 1 b-1 3 41 2 43a 30 486 c7 136-1 98-5 44-5 59-3 3b8-4 2c-3 bd-6 70-3 7f-2 " ++
    "81-1 6 10-1 58-4 6c 1a1-2 c-1 166-3 3-e 69-1 f9-2 205 1 fb-1 57-1 4-1 19e-2 2d 285-1 " ++
    "4a-1 52b-4 45f9-1 85 41-2 a 352-1 4e06 1de7-3")
  | "uideo" | "unifiedideograph" => some
    ("3400-19bf 40-51ff 5a0e-1 1 1-1 a 1 1-1 2-2 105d6-a6df 20-1039 6-dd 2-1681 e-1d30 " ++
    "f-26d 11a2-134a 5-105f")
  | "vs" | "variationselector" => some
    "180b-2 1 e5f0-f d02f0-ef"
  | "idsu" | "idsunaryoperator" => some "2ffe-1"
  | "otheralphabetic" | "oalpha" => some otherAlphabetic
  | "otherlowercase" | "olower" => some otherLowercase
  | "otheruppercase" | "oupper" => some otherUppercase
  | "othergraphemeextend" | "ogrext" => some otherGraphemeExtend
  | "othermath" | "omath" => some otherMath
  | "otheridstart" | "oids" => some otherIdStart
  | "otheridcontinue" | "oidc" => some otherIdContinue
  | _ => none

private def extra (s : CharSet) (table : String) : CharSet := s.union (CharSet.unpack table)

private def without (s : CharSet) (table : String) : CharSet := s.diff (CharSet.unpack table)

open Category in
def alphabetic : CharSet := extra (charsOf (letters ++ [letterNumber])) otherAlphabetic

def lowercase (_ : Unit) : CharSet := extra Category.lowercaseLetter.chars otherLowercase

def uppercase (_ : Unit) : CharSet := extra Category.uppercaseLetter.chars otherUppercase

open Category in
def graphemeExtend (_ : Unit) : CharSet := extra (charsOf [enclosingMark, nonspacingMark]) otherGraphemeExtend

open Category in
def graphemeBase (_ : Unit) : CharSet :=
  (charsOf (letters ++ marks ++ numbers ++ punctuations ++ symbols ++ [spaceSeparator])).diff
    (graphemeExtend ())

def cased (u : Unit) : CharSet :=
  (lowercase u).union ((uppercase u).union Category.titlecaseLetter.chars)

open Category in
def caseIgnorable (_ : Unit) : CharSet :=
  extra (charsOf [nonspacingMark, enclosingMark, format, modifierLetter, modifierSymbol]) caseIgnorableMarks

open Category in
def idStart (_ : Unit) : CharSet :=
  without (extra (charsOf (letters ++ [letterNumber])) otherIdStart) idStartExcluded

open Category in
def idContinue (u : Unit) : CharSet :=
  (idStart u).union
    (extra (charsOf [nonspacingMark, spacingMark, decimalNumber, connectorPunctuation]) otherIdContinue)

open Category in
def changesLowercased (_ : Unit) : CharSet :=
  without (extra (charsOf [uppercaseLetter, titlecaseLetter]) lowerExtra) lowerStable

def changesUppercased (u : Unit) : CharSet := without (extra (lowercase u) upperExtra) upperStable

def changesTitlecased (u : Unit) : CharSet := without (extra (changesUppercased u) titleExtra) titleStable

def changesCasefolded (u : Unit) : CharSet := without (extra (changesLowercased u) foldExtra) foldStable

/-- The properties that are built from general categories. -/
def derived? (name : String) : Option CharSet :=
  match name with
  | "alpha" | "alphabetic" => some alphabetic
  | "lower" | "lowercase" => some (lowercase ())
  | "upper" | "uppercase" => some (uppercase ())
  | "grext" | "graphemeextend" => some (graphemeExtend ())
  | "grbase" | "graphemebase" => some (graphemeBase ())
  | "cased" => some (cased ())
  | "ci" | "caseignorable" => some (caseIgnorable ())
  | "ids" | "idstart" => some (idStart ())
  | "idc" | "idcontinue" => some (idContinue ())
  | "xids" | "xidstart" => some (without (idStart ()) startUnstable)
  | "xidc" | "xidcontinue" => some (without (idContinue ()) continueUnstable)
  | "math" => some (extra Category.mathSymbol.chars otherMath)
  | "cwl" | "changeswhenlowercased" => some (changesLowercased ())
  | "cwu" | "changeswhenuppercased" => some (changesUppercased ())
  | "cwt" | "changeswhentitlecased" => some (changesTitlecased ())
  | "cwcf" | "changeswhencasefolded" => some (changesCasefolded ())
  | "cwcm" | "changeswhencasemapped" => some (CharSet.unions [changesLowercased (), changesUppercased (), changesTitlecased ()])
  | _ => none

def whiteSpace : CharSet := CharSet.unpack "9-4 12 64 1a 15df 97f-a 1d-1 5 2f fa0"

def named? (name : String) : Option CharSet :=
  match name with
  | "wspace" | "whitespace" | "space" => some whiteSpace
  | _ => match table? name with
    | some table => some (CharSet.unpack table)
    | none => derived? name

open Category in
/-- Letters and marks, decimal digits, connecting punctuation and the two joining controls. -/
def word : CharSet :=
  alphabetic.union (charsOf (marks ++ [decimalNumber, connectorPunctuation]))
    |>.union ⟨[⟨0x200C, 0x200D⟩]⟩

def digit : CharSet := Category.decimalNumber.chars

end EncounterTimeline.Text.Property
