/-
Scripts: in which kind of writing each code point is used.

Every code point is in one script.  Some that are used in several have a longer list of
them, their extension.  A script has a code of four letters and one name or two.
-/
import TestTransform.Character.Category

namespace TestTransform
namespace Character

/-- The script of each code point. -/
def scriptTable : List String :=
  ["65Zyyy26Latn6Zyyy26Latn47Zyyy1Latn15Zyyy1Latn5Zyyy23Latn1Zyyy31Latn1Zyyy449Latn39Zyyy5Latn",
   "5Zyyy2Bopo20Zyyy112Zinh4Grek1Zyyy3Grek2Zzzz4Grek1Zyyy1Grek4Zzzz1Grek1Zyyy1Grek1Zyyy3Grek",
   "1Zzzz1Grek1Zzzz20Grek1Zzzz63Grek14Copt16Grek133Cyrl2Zinh169Cyrl1Zzzz38Armn2Zzzz50Armn2Zzzz",
   "3Armn1Zzzz55Hebr8Zzzz27Hebr4Zzzz6Hebr11Zzzz5Arab1Zyyy6Arab1Zyyy14Arab1Zyyy3Arab1Zyyy32Arab",
   "1Zyyy10Arab11Zinh26Arab1Zinh108Arab1Zyyy34Arab14Syrc1Zzzz60Syrc2Zzzz3Syrc48Arab50Thaa14Zzzz",
   "59Nkoo2Zzzz3Nkoo46Samr2Zzzz15Samr1Zzzz28Mand2Zzzz1Mand1Zzzz11Syrc5Zzzz31Arab1Zzzz2Arab5Zzzz",
   "75Arab1Zyyy29Arab81Deva4Zinh15Deva2Zyyy26Deva4Beng1Zzzz8Beng2Zzzz2Beng2Zzzz22Beng1Zzzz7Beng",
   "1Zzzz1Beng3Zzzz4Beng2Zzzz9Beng2Zzzz2Beng2Zzzz4Beng8Zzzz1Beng4Zzzz2Beng1Zzzz5Beng2Zzzz25Beng",
   "2Zzzz3Guru1Zzzz6Guru4Zzzz2Guru2Zzzz22Guru1Zzzz7Guru1Zzzz2Guru1Zzzz2Guru1Zzzz2Guru2Zzzz1Guru",
   "1Zzzz5Guru4Zzzz2Guru2Zzzz3Guru3Zzzz1Guru7Zzzz4Guru1Zzzz1Guru7Zzzz17Guru10Zzzz3Gujr1Zzzz9Gujr",
   "1Zzzz3Gujr1Zzzz22Gujr1Zzzz7Gujr1Zzzz2Gujr1Zzzz5Gujr2Zzzz10Gujr1Zzzz3Gujr1Zzzz3Gujr2Zzzz1Gujr",
   "15Zzzz4Gujr2Zzzz12Gujr7Zzzz7Gujr1Zzzz3Orya1Zzzz8Orya2Zzzz2Orya2Zzzz22Orya1Zzzz7Orya1Zzzz",
   "2Orya1Zzzz5Orya2Zzzz9Orya2Zzzz2Orya2Zzzz3Orya7Zzzz3Orya4Zzzz2Orya1Zzzz5Orya2Zzzz18Orya10Zzzz",
   "2Taml1Zzzz6Taml3Zzzz3Taml1Zzzz4Taml3Zzzz2Taml1Zzzz1Taml1Zzzz2Taml3Zzzz2Taml3Zzzz3Taml3Zzzz",
   "12Taml4Zzzz5Taml3Zzzz3Taml1Zzzz4Taml2Zzzz1Taml6Zzzz1Taml14Zzzz21Taml5Zzzz13Telu1Zzzz3Telu",
   "1Zzzz23Telu1Zzzz16Telu2Zzzz9Telu1Zzzz3Telu1Zzzz4Telu7Zzzz2Telu1Zzzz3Telu2Zzzz1Telu2Zzzz4Telu",
   "2Zzzz10Telu7Zzzz9Telu13Knda1Zzzz3Knda1Zzzz23Knda1Zzzz10Knda1Zzzz5Knda2Zzzz9Knda1Zzzz3Knda",
   "1Zzzz4Knda7Zzzz2Knda6Zzzz2Knda1Zzzz4Knda2Zzzz10Knda1Zzzz3Knda12Zzzz13Mlym1Zzzz3Mlym1Zzzz",
   "51Mlym1Zzzz3Mlym1Zzzz6Mlym4Zzzz16Mlym2Zzzz26Mlym1Zzzz3Sinh1Zzzz18Sinh3Zzzz24Sinh1Zzzz9Sinh",
   "1Zzzz1Sinh2Zzzz7Sinh3Zzzz1Sinh4Zzzz6Sinh1Zzzz1Sinh1Zzzz8Sinh6Zzzz10Sinh2Zzzz3Sinh12Zzzz",
   "58Thai4Zzzz1Zyyy28Thai37Zzzz2Laoo1Zzzz1Laoo1Zzzz5Laoo1Zzzz24Laoo1Zzzz1Laoo1Zzzz23Laoo2Zzzz",
   "5Laoo1Zzzz1Laoo1Zzzz7Laoo1Zzzz10Laoo2Zzzz4Laoo32Zzzz72Tibt1Zzzz36Tibt4Zzzz39Tibt1Zzzz36Tibt",
   "1Zzzz15Tibt1Zzzz7Tibt4Zyyy2Tibt37Zzzz160Mymr38Geor1Zzzz1Geor5Zzzz1Geor2Zzzz43Geor1Zyyy4Geor",
   "256Hang73Ethi1Zzzz4Ethi2Zzzz7Ethi1Zzzz1Ethi1Zzzz4Ethi2Zzzz41Ethi1Zzzz4Ethi2Zzzz33Ethi1Zzzz",
   "4Ethi2Zzzz7Ethi1Zzzz1Ethi1Zzzz4Ethi2Zzzz15Ethi1Zzzz57Ethi1Zzzz4Ethi2Zzzz67Ethi2Zzzz32Ethi",
   "3Zzzz26Ethi6Zzzz86Cher2Zzzz6Cher2Zzzz640Cans29Ogam3Zzzz75Runr3Zyyy11Runr7Zzzz22Tglg9Zzzz",
   "1Tglg21Hano2Zyyy9Zzzz20Buhd12Zzzz13Tagb1Zzzz3Tagb1Zzzz2Tagb12Zzzz94Khmr2Zzzz10Khmr6Zzzz",
   "10Khmr6Zzzz2Mong2Zyyy1Mong1Zyyy20Mong6Zzzz89Mong7Zzzz43Mong5Zzzz70Cans10Zzzz31Limb1Zzzz",
   "12Limb4Zzzz12Limb4Zzzz1Limb3Zzzz12Limb30Tale2Zzzz5Tale11Zzzz44Talu4Zzzz26Talu6Zzzz11Talu",
   "3Zzzz2Talu32Khmr28Bugi2Zzzz2Bugi63Lana1Zzzz29Lana2Zzzz11Lana6Zzzz10Lana6Zzzz14Lana2Zzzz",
   "31Zinh49Zzzz77Bali1Zzzz50Bali64Sund52Batk8Zzzz4Batk56Lepc3Zzzz15Lepc3Zzzz3Lepc48Olck11Cyrl",
   "5Zzzz43Geor2Zzzz3Geor8Sund8Zzzz3Zinh1Zyyy13Zinh1Zyyy7Zinh4Zyyy1Zinh6Zyyy1Zinh3Zyyy2Zinh1Zyyy",
   "5Zzzz38Latn5Grek1Cyrl49Latn5Grek4Latn5Grek13Latn1Cyrl70Latn1Grek64Zinh256Latn22Grek2Zzzz",
   "6Grek2Zzzz38Grek2Zzzz6Grek2Zzzz8Grek1Zzzz1Grek1Zzzz1Grek1Zzzz1Grek1Zzzz31Grek2Zzzz53Grek",
   "1Zzzz15Grek1Zzzz14Grek2Zzzz6Grek1Zzzz19Grek2Zzzz3Grek1Zzzz9Grek1Zzzz12Zyyy2Zinh87Zyyy1Zzzz",
   "11Zyyy1Latn2Zzzz11Zyyy1Latn15Zyyy1Zzzz13Latn3Zzzz33Zyyy15Zzzz33Zinh15Zzzz38Zyyy1Grek3Zyyy",
   "2Latn6Zyyy1Latn27Zyyy1Latn17Zyyy41Latn3Zyyy4Zzzz666Zyyy22Zzzz11Zyyy21Zzzz928Zyyy256Brai",
   "628Zyyy2Zzzz32Zyyy1Zzzz105Zyyy96Glag32Latn116Copt5Zzzz7Copt38Geor1Zzzz1Geor5Zzzz1Geor2Zzzz",
   "56Tfng7Zzzz2Tfng14Zzzz1Tfng23Ethi9Zzzz7Ethi1Zzzz7Ethi1Zzzz7Ethi1Zzzz7Ethi1Zzzz7Ethi1Zzzz",
   "7Ethi1Zzzz7Ethi1Zzzz7Ethi1Zzzz32Cyrl94Zyyy34Zzzz26Hani1Zzzz89Hani12Zzzz214Hani26Zzzz21Zyyy",
   "1Hani1Zyyy1Hani25Zyyy9Hani4Zinh2Hang8Zyyy4Hani4Zyyy1Zzzz86Hira2Zzzz2Zinh2Zyyy3Hira1Zyyy",
   "90Kana2Zyyy3Kana5Zzzz43Bopo1Zzzz94Hang1Zzzz16Zyyy32Bopo38Zyyy9Zzzz1Zyyy16Kana31Hang1Zzzz",
   "64Zyyy31Hang81Zyyy47Kana1Zyyy88Kana168Zyyy6592Hani64Zyyy20992Hani1165Yiii3Zzzz55Yiii9Zzzz",
   "48Lisu300Vaii20Zzzz96Cyrl88Bamu8Zzzz34Zyyy102Latn3Zyyy67Latn2Zzzz2Latn1Zzzz1Latn1Zzzz8Latn",
   "21Zzzz14Latn45Sylo3Zzzz10Zyyy6Zzzz56Phag8Zzzz70Saur8Zzzz12Saur6Zzzz32Deva46Kali1Zyyy1Kali",
   "36Rjng11Zzzz1Rjng29Hang3Zzzz78Java1Zzzz1Zyyy10Java4Zzzz2Java31Mymr1Zzzz55Cham9Zzzz14Cham",
   "2Zzzz10Cham2Zzzz4Cham32Mymr67Tavt24Zzzz5Tavt23Mtei10Zzzz6Ethi2Zzzz6Ethi2Zzzz6Ethi9Zzzz7Ethi",
   "1Zzzz7Ethi1Zzzz43Latn1Zyyy9Latn1Grek4Latn2Zyyy4Zzzz80Cher46Mtei2Zzzz10Mtei6Zzzz11172Hang",
   "12Zzzz23Hang4Zzzz49Hang8452Zzzz366Hani2Zzzz106Hani38Zzzz7Latn12Zzzz5Armn5Zzzz26Hebr1Zzzz",
   "5Hebr1Zzzz1Hebr1Zzzz2Hebr1Zzzz2Hebr1Zzzz10Hebr115Arab16Zzzz363Arab2Zyyy80Arab2Zzzz54Arab",
   "7Zzzz1Arab32Zzzz16Arab16Zinh10Zyyy6Zzzz14Zinh2Cyrl35Zyyy1Zzzz19Zyyy1Zzzz4Zyyy4Zzzz5Arab1Zzzz",
   "135Arab2Zzzz1Zyyy1Zzzz32Zyyy26Latn6Zyyy26Latn11Zyyy10Kana1Zyyy45Kana2Zyyy31Hang3Zzzz6Hang",
   "2Zzzz6Hang2Zzzz6Hang2Zzzz3Hang3Zzzz7Zyyy1Zzzz7Zyyy10Zzzz5Zyyy2Zzzz12Linb1Zzzz26Linb1Zzzz",
   "19Linb1Zzzz2Linb1Zzzz15Linb2Zzzz14Linb34Zzzz123Linb5Zzzz3Zyyy4Zzzz45Zyyy3Zzzz9Zyyy79Grek",
   "1Zzzz13Zyyy3Zzzz1Grek47Zzzz45Zyyy1Zinh130Zzzz29Lyci3Zzzz49Cari15Zzzz1Zinh27Zyyy4Zzzz36Ital",
   "9Zzzz3Ital27Goth5Zzzz43Perm5Zzzz30Ugar1Zzzz1Ugar36Xpeo4Zzzz14Xpeo42Zzzz80Dsrt48Shaw30Osma",
   "2Zzzz10Osma6Zzzz36Osge4Zzzz36Osge4Zzzz40Elba8Zzzz52Aghb11Zzzz1Aghb11Vith1Zzzz15Vith1Zzzz",
   "7Vith1Zzzz2Vith1Zzzz11Vith1Zzzz15Vith1Zzzz7Vith1Zzzz2Vith3Zzzz52Todr12Zzzz311Lina9Zzzz22Lina",
   "10Zzzz8Lina24Zzzz6Latn1Zzzz42Latn1Zzzz9Latn69Zzzz6Cprt2Zzzz1Cprt1Zzzz44Cprt1Zzzz2Cprt3Zzzz",
   "1Cprt2Zzzz1Cprt22Armi1Zzzz9Armi32Palm31Nbat8Zzzz9Nbat48Zzzz19Hatr1Zzzz2Hatr5Zzzz5Hatr28Phnx",
   "3Zzzz1Phnx26Lydi5Zzzz1Lydi64Zzzz32Mero24Merc4Zzzz20Merc2Zzzz46Merc4Khar1Zzzz2Khar5Zzzz8Khar",
   "1Zzzz3Khar1Zzzz29Khar2Zzzz3Khar4Zzzz10Khar7Zzzz9Khar7Zzzz32Sarb32Narb32Zzzz39Mani4Zzzz12Mani",
   "9Zzzz54Avst3Zzzz7Avst22Prti2Zzzz8Prti19Phli5Zzzz8Phli18Phlp7Zzzz4Phlp12Zzzz7Phlp80Zzzz73Orkh",
   "55Zzzz51Hung13Zzzz51Hung7Zzzz6Hung40Rohg8Zzzz10Rohg6Zzzz38Gara3Zzzz29Gara8Zzzz2Gara208Zzzz",
   "31Arab1Zzzz42Yezi1Zzzz3Yezi2Zzzz2Yezi16Zzzz3Arab55Zzzz4Arab40Sogo8Zzzz42Sogd22Zzzz26Ougr",
   "38Zzzz28Chrs20Zzzz23Elym9Zzzz78Brah4Zzzz36Brah9Zzzz1Brah67Kthi10Zzzz1Kthi2Zzzz25Sora7Zzzz",
   "10Sora6Zzzz53Cakm1Zzzz18Cakm8Zzzz39Mahj9Zzzz96Shrd1Zzzz20Sinh11Zzzz18Khoj1Zzzz47Khoj62Zzzz",
   "7Mult1Zzzz1Mult1Zzzz4Mult1Zzzz15Mult1Zzzz11Mult6Zzzz59Sind5Zzzz10Sind6Zzzz4Gran1Zzzz8Gran",
   "2Zzzz2Gran2Zzzz22Gran1Zzzz7Gran1Zzzz2Gran1Zzzz5Gran1Zzzz1Zinh9Gran2Zzzz2Gran2Zzzz3Gran2Zzzz",
   "1Gran6Zzzz1Gran5Zzzz7Gran2Zzzz7Gran3Zzzz5Gran11Zzzz10Tutg1Zzzz1Tutg2Zzzz1Tutg1Zzzz38Tutg",
   "1Zzzz10Tutg1Zzzz1Tutg2Zzzz1Tutg1Zzzz4Tutg1Zzzz10Tutg1Zzzz2Tutg8Zzzz2Tutg29Zzzz92Newa1Zzzz",
   "5Newa30Zzzz72Tirh8Zzzz10Tirh166Zzzz54Sidd2Zzzz38Sidd34Zzzz69Modi11Zzzz10Modi6Zzzz13Mong",
   "19Zzzz58Takr6Zzzz10Takr6Zzzz20Mymr28Zzzz27Ahom2Zzzz15Ahom4Zzzz23Ahom185Zzzz60Dogr100Zzzz",
   "83Wara12Zzzz1Wara7Diak2Zzzz1Diak2Zzzz8Diak1Zzzz2Diak1Zzzz30Diak1Zzzz2Diak2Zzzz12Diak9Zzzz",
   "10Diak70Zzzz8Nand2Zzzz46Nand2Zzzz11Nand27Zzzz72Zanb8Zzzz83Soyo13Zzzz16Cans57Pauc7Zzzz10Deva",
   "182Zzzz34Sunu14Zzzz10Sunu6Zzzz9Bhks1Zzzz45Bhks1Zzzz14Bhks10Zzzz29Bhks3Zzzz32Marc2Zzzz22Marc",
   "1Zzzz14Marc73Zzzz7Gonm1Zzzz2Gonm1Zzzz44Gonm3Zzzz1Gonm1Zzzz2Gonm1Zzzz9Gonm8Zzzz10Gonm6Zzzz",
   "6Gong1Zzzz2Gong1Zzzz37Gong1Zzzz2Gong1Zzzz6Gong7Zzzz10Gong310Zzzz25Maka7Zzzz17Kawi1Zzzz41Kawi",
   "3Zzzz29Kawi85Zzzz1Lisu15Zzzz50Taml13Zzzz1Taml922Xsux102Zzzz111Xsux1Zzzz5Xsux11Zzzz196Xsux",
   "2636Zzzz99Cpmn13Zzzz1110Egyp10Zzzz3995Egyp5Zzzz583Hluw6841Zzzz58Gukh1734Zzzz569Bamu7Zzzz",
   "31Mroo1Zzzz10Mroo4Zzzz2Mroo79Tnsa1Zzzz10Tnsa6Zzzz30Bass2Zzzz6Bass10Zzzz70Hmng10Zzzz10Hmng",
   "1Zzzz7Hmng1Zzzz21Hmng5Zzzz19Hmng432Zzzz58Krai198Zzzz91Medf101Zzzz75Plrd4Zzzz57Plrd7Zzzz",
   "17Plrd64Zzzz1Tang1Nshu2Hani1Kits11Zzzz2Hani14Zzzz6136Tang8Zzzz768Tang470Kits41Zzzz1Kits9Tang",
   "8935Zzzz4Kana1Zzzz7Kana1Zzzz2Kana1Zzzz1Kana287Hira3Kana15Zzzz1Hira29Zzzz3Hira2Zzzz1Kana",
   "14Zzzz4Kana8Zzzz396Nshu2308Zzzz107Dupl5Zzzz13Dupl3Zzzz9Dupl7Zzzz10Dupl2Zzzz4Dupl4Zyyy",
   "3932Zzzz250Zyyy6Zzzz436Zyyy76Zzzz46Zinh2Zzzz23Zinh9Zzzz116Zyyy60Zzzz246Zyyy10Zzzz39Zyyy2Zzzz",
   "62Zyyy3Zinh17Zyyy8Zinh2Zyyy7Zinh30Zyyy4Zinh61Zyyy21Zzzz70Grek122Zzzz20Zyyy12Zzzz20Zyyy12Zzzz",
   "87Zyyy9Zzzz25Zyyy135Zzzz85Zyyy1Zzzz71Zyyy1Zzzz2Zyyy2Zzzz1Zyyy2Zzzz2Zyyy2Zzzz4Zyyy1Zzzz12Zyyy",
   "1Zzzz1Zyyy1Zzzz7Zyyy1Zzzz65Zyyy1Zzzz4Zyyy2Zzzz8Zyyy1Zzzz7Zyyy1Zzzz28Zyyy1Zzzz4Zyyy1Zzzz5Zyyy",
   "1Zzzz1Zyyy3Zzzz7Zyyy1Zzzz340Zyyy2Zzzz292Zyyy2Zzzz50Zyyy652Sgnw15Zzzz5Sgnw1Zzzz15Sgnw1104Zzzz",
   "31Latn6Zzzz6Latn213Zzzz7Glag1Zzzz17Glag2Zzzz7Glag1Zzzz2Glag1Zzzz5Glag5Zzzz62Cyrl33Zzzz1Cyrl",
   "112Zzzz45Hmnp3Zzzz14Hmnp2Zzzz10Hmnp4Zzzz2Hmnp320Zzzz31Toto17Zzzz58Wcho5Zzzz1Wcho464Zzzz",
   "42Nagm214Zzzz43Onao4Zzzz1Onao480Zzzz7Ethi1Zzzz4Ethi1Zzzz2Ethi1Zzzz15Ethi1Zzzz197Mend2Zzzz",
   "16Mend41Zzzz76Adlm4Zzzz10Adlm4Zzzz2Adlm785Zzzz68Zyyy76Zzzz61Zyyy194Zzzz4Arab1Zzzz27Arab1Zzzz",
   "2Arab1Zzzz1Arab2Zzzz1Arab1Zzzz10Arab1Zzzz4Arab1Zzzz1Arab1Zzzz1Arab6Zzzz1Arab4Zzzz1Arab1Zzzz",
   "1Arab1Zzzz1Arab1Zzzz3Arab1Zzzz2Arab1Zzzz1Arab2Zzzz1Arab1Zzzz1Arab1Zzzz1Arab1Zzzz1Arab1Zzzz",
   "1Arab1Zzzz2Arab1Zzzz1Arab2Zzzz4Arab1Zzzz7Arab1Zzzz4Arab1Zzzz4Arab1Zzzz1Arab1Zzzz10Arab1Zzzz",
   "17Arab5Zzzz3Arab1Zzzz5Arab1Zzzz17Arab52Zzzz2Arab270Zzzz44Zyyy4Zzzz100Zyyy12Zzzz15Zyyy2Zzzz",
   "15Zyyy1Zzzz15Zyyy1Zzzz37Zyyy10Zzzz174Zyyy56Zzzz26Zyyy1Hira2Zyyy13Zzzz44Zyyy4Zzzz9Zyyy7Zzzz",
   "2Zyyy14Zzzz6Zyyy154Zzzz984Zyyy4Zzzz17Zyyy3Zzzz13Zyyy3Zzzz119Zyyy4Zzzz95Zyyy6Zzzz12Zyyy4Zzzz",
   "1Zyyy15Zzzz12Zyyy4Zzzz56Zyyy8Zzzz10Zyyy6Zzzz40Zyyy8Zzzz30Zyyy2Zzzz12Zyyy4Zzzz2Zyyy62Zzzz",
   "340Zyyy12Zzzz14Zyyy2Zzzz13Zyyy3Zzzz10Zyyy5Zzzz56Zyyy7Zzzz15Zyyy2Zzzz11Zyyy6Zzzz9Zyyy7Zzzz",
   "147Zyyy1Zzzz102Zyyy1030Zzzz42720Hani32Zzzz4154Hani6Zzzz222Hani2Zzzz5762Hani14Zzzz7473Hani",
   "15Zzzz622Hani2466Zzzz542Hani1506Zzzz4939Hani5Zzzz4192Hani711761Zzzz1Zyyy30Zzzz96Zyyy128Zzzz",
   "240Zinh196112Zzzz"]

/-- The codes of the scripts in each code point's extension, one behind the other; `x` for
a code point that has none. -/
def extensionTable : List String :=
  ["183x1AvstCariCoptDuplElbaGeorGlagGongGothGrekHaniLatnLydiMahjPermShaw516x",
   "1BengCyrlDevaLatnLisuThaiToto10x1BopoLatn1x3BopoLatn1x1LatnLisu9x1LatnThai1x1BopoLatn38x",
   "1CherCoptCyrlGrekLatnPermSunuTale1CherCyrlGrekLatnOsgeSunuTaleTodr1CherCyrlLatnTfng",
   "1GlagLatnSunuSyrcThai1AghbCherCoptCyrlGothGrekLatnOsgeSyrcTfngTodr1CoptElbaGlagGothKanaLatn",
   "1CyrlGrekLatnPermTfng1CoptDuplHebrLatnPermSyrcTaleTfngTodr",
   "1ArmnCyrlDuplGothGrekHebrLatnPermSyrcTaleTfng1LatnTfng1DuplLatnSyrc1CherCyrlLatnOsge",
   "1CherLatnTale1LatnSunu1EthiLatn1x1LatnSunu1CyrlLatnTodr1x1GrekLatnPermTodr15x",
   "1CherDuplKanaLatnSyrcTfng1CherDuplLatnSyrc1LatnSyrc7x1LatnSunuSyrc1LatnSyrc1x1CherLatnSyrc",
   "1AghbCherGothLatnSunuSyrcThai16x1Grek2x1Grek18x1LatnOsge5x1AghbLatnTodr4x13Latn4x2CoptGrek",
   "269x1CyrlPerm1CyrlGlag2CyrlLatn1CyrlGlag257x1ArmnGeorGlag130x1ArabGaraNkooRohgSyrcThaaYezi",
   "14x1ArabGaraNkooRohgSyrcThaaYezi1ArabSyrcThaa2x1AdlmArabGaraNkooRohgSyrcThaaYezi32x",
   "1AdlmArabMandManiOugrPhlpRohgSogdSyrc10x11ArabSyrc10x10ArabThaaYezi6x1ArabSyrc99x1ArabRohg",
   "636x1BengDevaGranGujrGuruKndaLatnMlymNandNewaOryaShrdTamlTeluTirh",
   "1BengDevaGranGujrGuruKndaLatnMlymNewaOryaTamlTeluTirh17x",
   "1BengDevaDogrGongGonmGranGujrGuruKndaMahjMlymNandOnaoOryaSindSinhSyloTakrTamlTeluTirh",
   "1BengDevaDogrGongGonmGranGujrGukhGuruKndaLimbMahjMlymNandOnaoOryaSindSinhSyloTakrTamlTeluTirh",
   "10DevaDogrKthiMahj118x10BengCakmSylo118x10GuruMult118x10GujrKhoj246x14GranTaml242x",
   "10KndaNandTutg848x10CakmMymrTale177x1GeorGlagLatn1519x3Runr71x2BuhdHanoTagbTglg203x2MongPhag",
   "1x1MongPhag1226x1BengDevaGranKnda1Deva1BengDevaGranKnda1DevaGranKnda1Deva",
   "1BengDevaNewaTeluTirh1BengDevaTelu1DevaNewaShrd1BengDevaNewaTelu1DevaShrd",
   "1DevaKndaMlymOryaTamlTelu1Deva2DevaShrd2Deva1DevaShrd1BengDeva1DevaNewaTirh6Deva",
   "1DevaNandNewa1BengDevaShrd1DevaNewa1Deva1BengDevaNewaShrd4Deva",
   "1BengDevaGranKndaMlymNandOryaSinhTeluTirhTutg1DevaGran1DevaGranKndaTutg2BengDeva1Beng",
   "2DevaGran1Nand197x2Grek54x1CyrlLatnSyrc1x1Syrc564x1LatnMongPhag31x1AdlmArab10x",
   "1CariGeorGlagHungLyciOrkh2x1CariGrekHungMero146x1DevaGranLatn3366x1CoptLatn24x1AvstOrkh",
   "1AvstCariGeorHungKthiLydiSamr10x1Dupl4x1AdlmArabHung1x1CyrlGlag428x16HaniTang1x",
   "1BopoHangHaniHiraKanaMongYiii1BopoHangHaniHiraKanaMongPhagYiii1BopoHangHaniHiraKana2x1Hani1x",
   "2BopoHangHaniHiraKanaMongTibtYiii2BopoHangHaniHiraKanaLisuMongTibtYiii",
   "6BopoHangHaniHiraKanaYiii1x1BopoHangHaniHiraKana8BopoHangHaniHiraKanaYiii",
   "4BopoHangHaniHiraKana10x4BopoHani2x1BopoHangHaniHiraKana5HiraKana1x1BopoHangHaniHiraKana4x",
   "2HaniHiraKana2Hani89x4HiraKana3x1HiraKana90x1BopoHangHaniHiraKanaYiii1HiraKana147x16Hani32x",
   "38Hani9x1HaniTang48x40Hani56x49Hani15x12Hani51x1Hani88x25Hani10x5Hani96x31Hani29296x",
   "1CyrlGlag144x8HaniLatn296x3DevaDogrGujrGuruKhojKndaKthiMahjMlymModiNandShrdSindTakrTirhTutg",
   "3DevaDogrGujrGuruKhojKndaKthiMahjModiNandShrdSindTakrTirhTutg",
   "2DevaDogrGujrGuruKhojKthiMahjModiSindTakrTirh",
   "1DevaDogrGujrGuruKhojKthiMahjModiShrdSindTakrTirh",
   "1DevaDogrGujrGuruKhojKthiMahjModiSindTakrTirh183x1BengDevaTutg1x1DevaTaml58x1KaliLatnMymr",
   "160x1BugiJava21358x2ArabNkoo178x1ArabThaa10x1ArabThaa71x2BopoHangHaniHiraKana282x",
   "5BopoHangHaniHiraKanaYiii10x1HiraKana45x2HiraKana352x2CpmnCprtLinb1CprtLinb4x45CprtLinaLinb",
   "3x9CprtLinb416x28ArabCopt2038x1ManiOugr2062x1GranTaml1x1GranTaml55x2GranTaml3219x2GranTaml1x",
   "1GranTaml40140x4Dupl5820x18Hani7902x2Hani986542x"]

/-- The code and the names of each script. -/
def scriptNames : List String :=
  ["Adlm Adlam", "Aghb Caucasian_Albanian", "Ahom", "Arab Arabic", "Armi Imperial_Aramaic",
   "Armn Armenian", "Avst Avestan", "Bali Balinese", "Bamu Bamum", "Bass Bassa_Vah", "Batk Batak",
   "Beng Bengali", "Bhks Bhaiksuki", "Bopo Bopomofo", "Brah Brahmi", "Brai Braille",
   "Bugi Buginese", "Buhd Buhid", "Cakm Chakma", "Cans Canadian_Aboriginal", "Cari Carian",
   "Cham", "Cher Cherokee", "Chrs Chorasmian", "Copt Coptic Qaac", "Cpmn Cypro_Minoan",
   "Cprt Cypriot", "Cyrl Cyrillic", "Deva Devanagari", "Diak Dives_Akuru", "Dogr Dogra",
   "Dsrt Deseret", "Dupl Duployan", "Egyp Egyptian_Hieroglyphs", "Elba Elbasan", "Elym Elymaic",
   "Ethi Ethiopic", "Gara Garay", "Geor Georgian", "Glag Glagolitic", "Gong Gunjala_Gondi",
   "Gonm Masaram_Gondi", "Goth Gothic", "Gran Grantha", "Grek Greek", "Gujr Gujarati",
   "Gukh Gurung_Khema", "Guru Gurmukhi", "Hang Hangul", "Hani Han", "Hano Hanunoo", "Hatr Hatran",
   "Hebr Hebrew", "Hira Hiragana", "Hluw Anatolian_Hieroglyphs", "Hmng Pahawh_Hmong",
   "Hmnp Nyiakeng_Puachue_Hmong", "Hung Old_Hungarian", "Ital Old_Italic", "Java Javanese",
   "Kali Kayah_Li", "Kana Katakana", "Kawi", "Khar Kharoshthi", "Khmr Khmer", "Khoj Khojki",
   "Kits Khitan_Small_Script", "Knda Kannada", "Krai Kirat_Rai", "Kthi Kaithi", "Lana Tai_Tham",
   "Laoo Lao", "Latn Latin", "Lepc Lepcha", "Limb Limbu", "Lina Linear_A", "Linb Linear_B",
   "Lisu", "Lyci Lycian", "Lydi Lydian", "Mahj Mahajani", "Maka Makasar", "Mand Mandaic",
   "Mani Manichaean", "Marc Marchen", "Medf Medefaidrin", "Mend Mende_Kikakui",
   "Merc Meroitic_Cursive", "Mero Meroitic_Hieroglyphs", "Mlym Malayalam", "Modi",
   "Mong Mongolian", "Mroo Mro", "Mtei Meetei_Mayek", "Mult Multani", "Mymr Myanmar",
   "Nagm Nag_Mundari", "Nand Nandinagari", "Narb Old_North_Arabian", "Nbat Nabataean", "Newa",
   "Nkoo Nko", "Nshu Nushu", "Ogam Ogham", "Olck Ol_Chiki", "Onao Ol_Onal", "Orkh Old_Turkic",
   "Orya Oriya", "Osge Osage", "Osma Osmanya", "Ougr Old_Uyghur", "Palm Palmyrene",
   "Pauc Pau_Cin_Hau", "Perm Old_Permic", "Phag Phags_Pa", "Phli Inscriptional_Pahlavi",
   "Phlp Psalter_Pahlavi", "Phnx Phoenician", "Plrd Miao", "Prti Inscriptional_Parthian",
   "Rjng Rejang", "Rohg Hanifi_Rohingya", "Runr Runic", "Samr Samaritan",
   "Sarb Old_South_Arabian", "Saur Saurashtra", "Sgnw SignWriting", "Shaw Shavian",
   "Shrd Sharada", "Sidd Siddham", "Sind Khudawadi", "Sinh Sinhala", "Sogd Sogdian",
   "Sogo Old_Sogdian", "Sora Sora_Sompeng", "Soyo Soyombo", "Sund Sundanese", "Sunu Sunuwar",
   "Sylo Syloti_Nagri", "Syrc Syriac", "Tagb Tagbanwa", "Takr Takri", "Tale Tai_Le",
   "Talu New_Tai_Lue", "Taml Tamil", "Tang Tangut", "Tavt Tai_Viet", "Telu Telugu",
   "Tfng Tifinagh", "Tglg Tagalog", "Thaa Thaana", "Thai", "Tibt Tibetan", "Tirh Tirhuta",
   "Tnsa Tangsa", "Todr Todhri", "Toto", "Tutg Tulu_Tigalari", "Ugar Ugaritic", "Vaii Vai",
   "Vith Vithkuqi", "Wara Warang_Citi", "Wcho Wancho", "Xpeo Old_Persian", "Xsux Cuneiform",
   "Yezi Yezidi", "Yiii Yi", "Zanb Zanabazar_Square", "Zinh Inherited Qaai", "Zyyy Common"]

/-- The code points in the script with a code. -/
def ofScript (code : Text) : Ranges := wanted (runs scriptTable) fun v => v == code

/-- The codes in an extension.  The fuel is its length. -/
def codesIn : (fuel : Nat) → Text → List Text
  | 0, _ => []
  | fuel + 1, t => if t.isEmpty then [] else t.take 4 :: codesIn fuel (t.drop 4)

/-- The code points that are used in the script with a code, whatever other scripts they
are used in. -/
def usedInScript (code : Text) : Ranges :=
  let extensions := runs extensionTable
  let none : Text := "x"
  ((ofScript code).inter (wanted extensions fun v => v == none)).union
    (wanted extensions fun v => v ≠ none && (codesIn v.length v).contains code)

end Character
end TestTransform
