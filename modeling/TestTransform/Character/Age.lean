/-
Ages: in which version of the standard a code point was given a meaning.
-/
import TestTransform.Character.Category

namespace TestTransform
namespace Character

/-- The letters of the version of each code point; `x` for one that has no meaning yet. -/
def ageTable : List String :=
  ["502A4D30A8D1F1G18D3G11H14I89A5D2G47A1D10A5D17G70A9D1F8G5H3G2A1D13F4J2A2J2x1A3I1A1P4x7A1x1A1x",
   "20A1x44A1J7A1D2F1A1D1A1D1A1D1A1D18A2E1F5G4H1D12A1D66A1D12A1D41A1J2D2F4D53A2F2A2F2A2F1I28A2D",
   "8A2H2A6I16F4I16J2K2L8P1x38A2x7A1T39A1T1A1D2x2P1M1x17B1H13B10A1I9A1B3H8x27A4x1T5A11x4G1M1P5J",
   "1H1A9G5J1A1O1X1H1A1L26A5J19A3D3G6H1L14A2F72A2D5A1D15A1D30A2G10A5D1G14D1x30D3G27D2x3G30H18J",
   "49D1F14x59I2x3T46K2x15K1x28L2x1L1x11S5x31X1x2X5x1AA8X1M1P11M6P2Q1X8R10W11X1T15R1Q27M1P1K3A1G",
   "53A2L18A1K1L5A1K2L25A2J5L1P2K2I1H2I1P3A1x8A2x2A2x22A1x7A1x1A3x4A2x1A1G7A2x2A2x3A1H8x1A4x2A1x",
   "5A2x21A1K2S1T2x1G1A1G1x6A4x2A2x22A1x7A1x2A1x2A1x2A2x1A1x5A4x2A2x3A3x1J7x4A1x1A7x15A1J1T10x3A",
   "1x7A1G1A1x3A1x22A1x7A1x2A1x5A2x10A1x3A1x3A2x1A15x1A3G2x10A1M1G7x1Q6S1x3A1x8A2x2A2x22A1x7A1x",
   "2A1x1G4A2x8A1J2x2A2x3A7x1W2A4x2A1x3A2J2x11A1G6L10x2A1x6A3x3A1x4A3x2A1x1A1x2A3x2A3x3A3x8A1H3A",
   "4x5A3x3A1x4A2x1J6x1A14x1H12A8G5x1P3A1T8A1x3A1x23A1x10A1P5A2x1X1J7A1x3A1x4A7x2A1x2J1Q2x1X2x2A",
   "2J2x10A7x1U8J1R1P2A1T8A1x3A1x23A1x10A1x5A2x2G7A1x3A1x4A7x2A6x1X1A1x2A2I2x10A1x2I1Y12x1S1P2A",
   "1W8A1x3A1x23A1L16A1L2S1J6A1J1x3A1x4A1L1R4x3R1A7R1Q2A2J2x10A6J3R7J1x1W2D1x18D3x24D1x9D1x1D2x",
   "7D3x1D4x6D1x1D1x8D6x10P2x3D12x58A4x29A37x2A1x1A1x1U2A1U1A1x1U1A6U4A1U7A1U3A1x1A1x1A2U2A1U13A",
   "1U3A2x5A1x1A1x6A1Y1x10A2x2A2M32x72B1x33B1D2J4x27B4L6B1D1B1x21B3D7B1D1B3D1x15D1x1J1D2H3J4K2L",
   "37x34D1J5D1J2D1J7D3J4D6J26D64J4K2J38A1x1M5x1M2x39A2F2H1A1H3M90A5K68A5K82A6K7D1H63D1H1D1x4D2x",
   "7D1x1D1x4D2x39D1H1D1x4D2x31D1H1D1x4D2x7D1x1D1x4D2x7D1H7D1x23D1H31D1H1D1x4D2x7D1H39D1H19D2x2L",
   "2H28D3x26H6x85D1Q2x6Q2x1K630D9K29D3x81D8P7x13F1X7F1X9x1X23F9x20F12x13F1x3F1x2F12x93D1G2x10D",
   "6x10G6x15D1X10D6x88D1T7x42D1J5x70K10x29G2P1x12G4x12G4x1G3x42G2x5G11x42H2K4x26H6x10H1K3x2H32G",
   "28H2x2H63K1x29K2x11K6x10K6x14K2x15P2W14X49x76I1X1x2AA45I2X1AA43J3M12J6M52L8x4L56J3x15J3x51J",
   "9R2AA5x43T2x3T8M8x35K4M1S2P1U5x108G88H7I28J15P4S1X1R1L1K2I155A1B4J90A6J22A2x6A2x38A2x6A2x8A",
   "1x1A1x1A1x1A1x31A2x53A1x15A1x14A2x6A1x19A2x3A1x9A1x47A1D23A1F6D5F2G2H1F7H5F1J1x4O7A1F2x27A1x",
   "5H8L3x11A1B1C3D2F4H3K1L1N3P1Q1S1X15x18A2D7F1H4I1J15x57A2D1G1H15F1H2I1J3K48A1D1I4J1K2Q4x91A9D",
   "12F242A14F1A1D121A1D1F30D52F2G11H12I1K11L7P4R1S37A2D3AA22x11A21x139A20F1G150A10F80A8D8F20A2G",
   "2F1H1D86A2D12F2H10F8G11H1J2K2G16H1I10J3K4J10K1L19K1L1K4L24K1P4A1L4A2L28A1L35A1L1A1L4A3L1A1K",
   "7A2L7A14F31A3L24A1L14A1L7H4I1M1J1M2L28F4J16F256D512F14G6H7I5J4I41J3P5J5K26P2x32P1x1W34P3T12P",
   "1U8P1S25T4Q15T1U47H1X47H1X13I3J1K3J4I6J2K107H7K2M5x45H1x1M5x1M2x54H2M7x1H1L14x1L23H9x7H1x7H",
   "1x7H1x7H1x7H1x7H1x7H1x7H1x32J24H4J2H19J1K10M7P2R5S5T1U3W11X34x26D1x89D12x214D26x12D4Z56A3D3F",
   "1D1A1x84A2F2x6A2F94A1F5x40A1J1S1T1x94A1x16A24D3L5W16H20J2AA9x1Z16F29A2G1x36A12K1G15F28A2G1H",
   "50A15F12A4G47A1V119A4G99A2G31A1G6582D10W64G20902A22H8J8K1M9Q21S5T13W3X1165D3x18D2F16D1F12D1F",
   "3D1F1D9x48K300J20x32J2L18J8M28J6P1Q1M88K8x23H4I5J2I107J2L1Q2L2M12P10L1M3P1R1T2P6Q2T6U2X5U4W",
   "3AA2x2X1x1X1x5X3AA21x3X2W1P2M1L5J44H1W3x10K6x56I8x69J1R8x12J6x28K2Q2T84J11x1J29K3x78K1x11K4x",
   "2K31P1x55J9x14J2x10J2x4J28K4P67K24x5K23M10x6L2x6L2x6L9x7L1x7L1x48P4Q2P2U4W4x80Q46K2x10K6x",
   "11172B12x23K4x49K2052x6702A2M59F3K2x106H38x7A12x5A5x1D25A1x5A1x1A1x2A1x2A1x108A16L1X16x365A",
   "16X64A2x54A7x1X32E12A1F1G2X16F10H6x4A3J7P2Q21A2F2G10A1x19A1x4A4x3A1F1A1x135A2x1A1x94A2F94A3x",
   "6A2x6A2x6A2x3A3x7A1x7A10x3D1C3A12G1x26G1x19G1x2G1x15G2x14G34x123G5x3G4x45G3x9G75H2P2R1x12J1W",
   "3x1P47x46J130x29J3x49J15x28P4x31E1P4E9x3S27E5x43P5x30G1x1G36H4x14H42x38E2G38E80G2x10G6x36R4x",
   "36R4x40P8x52P11x1P11X1x15X1x7X1x2X1x11X1x15X1x7X1x2X3x52AA12x311P9x22P10x8P24x6X1x42X1x9X69x",
   "6G2x1G1x44G1x2G3x1G2x1G22K1x9K63P8x9P48x19Q1x2Q5x5Q26I2K3x1I26J5x1J64x56M4x2Q2M16Q2x46Q4H1x",
   "2H5x8H1x3H1x27H2T2x3H4x9H1T7x9H7x32K32P32x39P4x12P9x54K3x29K2x27K5x8K18P7x4P12x7P80x73K55x",
   "51Q13x51Q7x6Q40T8x10T6x38AA3x29AA8x2AA208x31K1x42W1x3W2x2W16x3AA55x1AA3Y40T8x42T22x26X38x28W",
   "20x23U9x78L4x30L6X9x1P66K1X10x1T2x25M7x10M6x53M1x14M3T1W8x39P9x73M4Q1P2W10M1P5Q1x20P11x18P1x",
   "43P1R3Y62x7Q1x1Q1x4Q1x15Q1x11Q6x59P5x10P6x1Q3P1x8P2x2P2x22P1x7P1x2P1x5P1x1T9P2x2P2x3P2x1Q6x",
   "1P5x7P2x7P3x5P11x10AA1x1AA2x1AA1x38AA1x10AA1x1AA2x1AA1x4AA1x10AA1x2AA8x2AA29x90R1W1R1x1R1T1U",
   "2W30x72P8x10P166x54P2x18P20Q34x69P11x10P6x13R19x56M1U1X6x10M6x20AA28x26Q1T2x15Q4x16Q7X185x",
   "60T100x83P12x1P7W2x1W2x8W1x2W1x30W1x2W2x12W9x10W70x8U2x46U2x11U27x72S8x52S2U23S1T5S13x16X57P",
   "7x10Y182x34AA14x10AA6x9R1x45R1x14R10x29R3x32R2x22R1x14R73x7S1x2S1x44S3x1S1x2S1x9S8x10S6x6T1x",
   "2T1x37T1x2T1x6T7x10T310x25T7x17Y1x41Y3x28Y1AA85x1W15x50U13x1U879I42P1Q102x99I12P1x4I1P11x",
   "196Q2636x99X13x1071K1Y9U29Y10x3995AA5x583Q6841x58AA1734x569L7x31P1x10P4x2P79X1x10X6x30P2x6P",
   "10x70P10x10P1x7P1x21P5x19P432x58AA198x91T101x69M6U4x1U47M9U7x17M64x1R1S2U1W11x2W14x6125R5T6U",
   "8x755R483W41x1AA9W8935x4X1x7X1x2X1x2L285S4X15x1Y29x3U2x1Y14x4U8x396S2308x107P5x13P3x9P7x10P",
   "2x8P3932x250AA6x436AA76x46X2x23X9x116X60x246E10x39E2x1J180E11Q2X21x70H122x20Y12x20T12x87G9x",
   "18I7T135x85E1x71E1x2E2x1E2x2E2x4E1x12E1x1E1x4E1G2E1x65E1x4E2x8E1x7E1x28E1x4E1x5E1x1E3x7E1x",
   "338E2H2x290E2I2x50E652Q15x5Q1x15Q1104x31X6x6Y213x7R1x17R2x7R1x2R1x5R5x62Y33x1Y112x45U3x14U2x",
   "10U4x2U320x31X17x58U5x1U464x42Y214x43AA4x1AA480x7X1x4X1x2X1x15X1x197P2x16P41x75R1U4x10R4x2R",
   "785x68T76x61U194x4M1x27M1x2M1x1M2x1M1x10M1x4M1x1M1x1M6x1M4x1M1x1M1x1M1x3M1x2M1x1M2x1M1x1M1x",
   "1M1x1M1x1M1x2M1x1M2x4M1x7M1x4M1x4M1x1M1x10M1x17M5x3M1x5M1x17M52x2M270x44J4x100J12x15L2x14L1P",
   "1x15L1x15L22P10x11K2P3W31K1T1L1K11L1K1L1K2L1K3L1K3L5K8L1K7L1K10L2M1U3W9L1K1L2K2L1K10L4K2L1K",
   "10L18R1W56x26L1K2L13x34K9L1R4x9K7x2L14x6S154x33L12P3Q6L1P70L1P2Q20L12P37L1P5L4P5Q12P17L7P8Q",
   "63L1P1L1P182L1P4L2P1Q62L2P4M7P5Q24L18P1R41P1R86P5L1M16L1M3L1M1L1M1L1M1L1M3L1M6L2M4L1M1L2M4L",
   "1M12L2P2Q11L48P70L10P1Q2R2S1U2W4x1Y3X13P3x4P3R2S1T1U2W3x116L3Y4x5Y85P4T1Y6x12U4x1X15x12P4x",
   "56P8x10P6x40P8x30P2x2W10AA4x2AA62x12S1W3U9Q6R1S8R8S1R2S12R1U12R1S3T15R13S5T1U1W4T2W1X1T1U4T",
   "5Q13R6S11T2W6U3W2U10T6U1Q2T8U1W1X3U23S25T84U12x14T2x4U1W3Y3U2X3x3U4W2Y1AA5x1AA6U19W4X3Y7W4X",
   "3Y1AA1Y3W3X1AA7x2Y7W3X2Y1AA2x1AA8X1Y1AA6x7X2Y7x147W1x55W37AA10W1028x2B42711E7W2X32x4149K4X1Y",
   "6x222L2x5762Q14x7473S15x622Z2466x542E1504x2B4939W5x4192Y56398x2B65534x2B65534x2B65534x2B",
   "65534x2B65534x2B65534x2B65534x2B65534x2B65534x2B65534x2B1x1E30x96E128x240G65038x131074B"]

/-- The versions in their order, each with its letters in the table. -/
def versions : List (String × String) :=
  [ ("1.1", "A"), ("2.0", "B"), ("2.1", "C"), ("3.0", "D"), ("3.1", "E"), ("3.2", "F"), ("4.0",
    "G"), ("4.1", "H"), ("5.0", "I"), ("5.1", "J"), ("5.2", "K"), ("6.0", "L"), ("6.1", "M"),
    ("6.2", "N"), ("6.3", "O"), ("7.0", "P"), ("8.0", "Q"), ("9.0", "R"), ("10.0", "S"),
    ("11.0", "T"), ("12.0", "U"), ("12.1", "V"), ("13.0", "W"), ("14.0", "X"), ("15.0", "Y"),
    ("15.1", "Z"), ("16.0", "AA") ]

/-- The versions up to a given one. -/
def versionsUpTo (version : Text) : List (String × String) → List Text
  | [] => []
  | (name, letters) :: rest =>
    letters.toList :: if name.toList == version then [] else versionsUpTo version rest

/-- The code points that had a meaning in a version. -/
def ofAge (version : Text) : Ranges :=
  wanted (runs ageTable) (versionsUpTo version versions).contains

end Character
end TestTransform
