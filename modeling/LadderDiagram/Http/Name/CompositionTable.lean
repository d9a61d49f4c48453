/-!
# Composition table

The pairs of characters for which the Unicode standard has one character, as far
as a host name may hold them.
-/

namespace LadderDiagram
namespace Http

/-- A mark, with characters that it may stand on and what the two make, in turn. -/
structure CompositionRow where
  mark : Nat
  pairs : String

/-- What marks make with letters and signs. -/
def compositionRows : List CompositionRow := [
  ⟨0x300, "aàeèiìoòuùüǜnǹеѐиѝēḕōṑwẁâầăằêềôồơờưừyỳἀἂἁἃἐἒἑἓἠἢἡἣἰἲἱἳὀὂὁὃὐὒ"⟩,
  ⟨0x300, "ὑὓὠὢὡὣαὰεὲηὴιὶοὸυὺωὼϊῒϋῢ"⟩,
  ⟨0x301, "aáeéiíoóuúyýcćlĺnńrŕsśzźüǘgǵåǻæǽøǿϊΐαάεέηήιίϋΰοόυύωώгѓкќçḉēḗ"⟩,
  ⟨0x301, "ïḯkḱmḿõṍōṓpṕũṹwẃâấăắêếôốơớưứἀἄἁἅἐἔἑἕἠἤἡἥἰἴἱἵὀὄὁὅὐὔὑὕὠὤὡὥ"⟩,
  ⟨0x302, "aâeêiîoôuûcĉgĝhĥjĵsŝwŵyŷzẑạậẹệọộ"⟩,
  ⟨0x303, "aãnñoõiĩuũvṽâẫăẵeẽêễôỗơỡưữyỹ"⟩,
  ⟨0x304, "aāeēiīoōuūüǖäǟȧǡæǣǫǭöȫõȭȯȱyȳиӣуӯgḡḷḹṛṝαᾱιῑυῡ"⟩,
  ⟨0x306, "aăeĕgğiĭoŏuŭийуўжӂаӑеӗȩḝạặαᾰιῐυῠ"⟩,
  ⟨0x307, "cċeėgġzżaȧoȯbḃdḋfḟhḣmṁnṅpṗrṙsṡśṥšṧṣṩtṫwẇxẋyẏ"⟩,
  ⟨0x308, "aäeëiïoöuüyÿιϊυϋеёіїаӓәӛжӝзӟиӥоӧөӫэӭуӱчӵыӹhḧõṏūṻwẅxẍtẗ"⟩,
  ⟨0x309, "aảâẩăẳeẻêểiỉoỏôổơởuủưửyỷ"⟩,
  ⟨0x30A, "aåuůwẘyẙ"⟩,
  ⟨0x30B, "oőuűуӳ"⟩,
  ⟨0x30C, "cčdďeělľnňrřsštťzžaǎiǐoǒuǔüǚgǧkǩʒǯjǰhȟ"⟩,
  ⟨0x30F, "aȁeȅiȉoȍrȑuȕѵѷ"⟩,
  ⟨0x311, "aȃeȇiȋoȏrȓuȗ"⟩,
  ⟨0x313, "αἀεἐηἠιἰοὀυὐωὠρῤ"⟩,
  ⟨0x314, "αἁεἑηἡιἱοὁυὑωὡρῥ"⟩,
  ⟨0x31B, "oơuư"⟩,
  ⟨0x323, "bḅdḍhḥkḳlḷmṃnṇrṛsṣtṭvṿwẉzẓaạeẹiịoọơợuụưựyỵ"⟩,
  ⟨0x324, "uṳ"⟩,
  ⟨0x325, "aḁ"⟩,
  ⟨0x326, "sștț"⟩,
  ⟨0x327, "cçgģkķlļnņrŗsştţeȩdḑhḩ"⟩,
  ⟨0x328, "aąeęiįuųoǫ"⟩,
  ⟨0x32D, "dḓeḙlḽnṋtṱuṷ"⟩,
  ⟨0x32E, "hḫ"⟩,
  ⟨0x330, "eḛiḭuṵ"⟩,
  ⟨0x331, "bḇdḏkḵlḻnṉrṟtṯzẕhẖ"⟩,
  ⟨0x338, "←↚→↛↔↮⇐⇍⇔⇎⇒⇏∃∄∈∉∋∌∣∤∥∦∼≁≃≄≅≇≈≉=≠≡≢≍≭<≮>≯≤≰≥≱≲≴≳≵≶≸≷≹≺⊀≻⊁⊂⊄⊃⊅"⟩,
  ⟨0x338, "⊆⊈⊇⊉⊢⊬⊨⊭⊩⊮⊫⊯≼⋠≽⋡⊑⋢⊒⋣⊲⋪⊳⋫⊴⋬⊵⋭"⟩,
  ⟨0x342, "ἀἆἁἇἠἦἡἧἰἶἱἷὐὖὑὗὠὦὡὧαᾶηῆιῖϊῗυῦϋῧωῶ"⟩,
  ⟨0x653, "اآ"⟩,
  ⟨0x654, "اأوؤيئەۀہۂےۓ"⟩,
  ⟨0x655, "اإ"⟩,
  ⟨0x93C, "नऩरऱळऴ"⟩,
  ⟨0xBD7, "ஒஔ"⟩,
  ⟨0x102E, "ဥဦ"⟩,
  ⟨0x1B35, "ᬅᬆᬇᬈᬉᬊᬋᬌᬍᬎᬑᬒ"⟩,
  ⟨0x3099, "かがきぎくぐけげこごさざしじすずせぜそぞただちぢつづてでとどはばひびふぶへべほぼうゔゝゞカガキギクグケゲコゴサザシジスズ"⟩,
  ⟨0x3099, "セゼソゾタダチヂツヅテデトドハバヒビフブヘベホボウヴワヷヰヸヱヹヲヺヽヾ"⟩,
  ⟨0x309A, "はぱひぴふぷへぺほぽハパヒピフプヘペホポ"⟩]

/-- What marks make with other marks, and in scripts beyond the first plane. -/
def compositionTriples : List (Nat × Nat × Nat) :=
  [(0x9C7, 0x9BE, 0x9CB), (0x9C7, 0x9D7, 0x9CC), (0xB47, 0xB56, 0xB48), (0xB47, 0xB3E, 0xB4B),
   (0xB47, 0xB57, 0xB4C), (0xBC6, 0xBBE, 0xBCA), (0xBC7, 0xBBE, 0xBCB), (0xBC6, 0xBD7, 0xBCC),
   (0xC46, 0xC56, 0xC48), (0xCBF, 0xCD5, 0xCC0), (0xCC6, 0xCD5, 0xCC7), (0xCC6, 0xCD6, 0xCC8),
   (0xCC6, 0xCC2, 0xCCA), (0xCCA, 0xCD5, 0xCCB), (0xD46, 0xD3E, 0xD4A), (0xD47, 0xD3E, 0xD4B),
   (0xD46, 0xD57, 0xD4C), (0xDD9, 0xDCA, 0xDDA), (0xDD9, 0xDCF, 0xDDC), (0xDDC, 0xDCA, 0xDDD),
   (0xDD9, 0xDDF, 0xDDE), (0x1B3A, 0x1B35, 0x1B3B), (0x1B3C, 0x1B35, 0x1B3D),
   (0x1B3E, 0x1B35, 0x1B40), (0x1B3F, 0x1B35, 0x1B41), (0x1B42, 0x1B35, 0x1B43),
   (0x105D2, 0x307, 0x105C9), (0x105DA, 0x307, 0x105E4), (0x11099, 0x110BA, 0x1109A),
   (0x1109B, 0x110BA, 0x1109C), (0x110A5, 0x110BA, 0x110AB), (0x11131, 0x11127, 0x1112E),
   (0x11132, 0x11127, 0x1112F), (0x11347, 0x1133E, 0x1134B), (0x11347, 0x11357, 0x1134C),
   (0x11382, 0x113C9, 0x11383), (0x11384, 0x113BB, 0x11385), (0x1138B, 0x113C2, 0x1138E),
   (0x11390, 0x113C9, 0x11391), (0x113C2, 0x113C2, 0x113C5), (0x113C2, 0x113B8, 0x113C7),
   (0x113C2, 0x113C9, 0x113C8), (0x114B9, 0x114BA, 0x114BB), (0x114B9, 0x114B0, 0x114BC),
   (0x114B9, 0x114BD, 0x114BE), (0x115B8, 0x115AF, 0x115BA), (0x115B9, 0x115AF, 0x115BB),
   (0x11935, 0x11930, 0x11938), (0x1611E, 0x1611E, 0x16121), (0x1611E, 0x16129, 0x16122),
   (0x1611E, 0x1611F, 0x16123), (0x16129, 0x1611F, 0x16124), (0x1611E, 0x16120, 0x16125),
   (0x16121, 0x1611F, 0x16126), (0x16122, 0x1611F, 0x16127), (0x16121, 0x16120, 0x16128),
   (0x16D67, 0x16D67, 0x16D68), (0x16D63, 0x16D67, 0x16D69), (0x16D69, 0x16D67, 0x16D6A)]

end Http
end LadderDiagram
