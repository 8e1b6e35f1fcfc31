import CallGraph.Text.Digit
import CallGraph.Text.RangeTree

/-!
# Characters by their names

A character can be called by its name, and some have further ones.  Upper and lower case do not
count in names.  The tables hold the Latin, Greek and Cyrillic letters, the common signs and marks
and the control characters; ideographs are named by their numbers.  All other names are unknown.
-/

namespace CallGraph.Text

/-- The names of consecutive characters. -/
structure NameRun where
  /-- The first code point. -/
  first : Nat
  /-- The names, one for each code point. -/
  names : List String

/-- The names of characters. -/
def nameRuns : List NameRun :=
  [⟨0x20,
    ["SPACE", "EXCLAMATION MARK", "QUOTATION MARK", "NUMBER SIGN", "DOLLAR SIGN", "PERCENT SIGN",
     "AMPERSAND", "APOSTROPHE", "LEFT PARENTHESIS", "RIGHT PARENTHESIS", "ASTERISK", "PLUS SIGN",
     "COMMA", "HYPHEN-MINUS", "FULL STOP", "SOLIDUS", "DIGIT ZERO", "DIGIT ONE", "DIGIT TWO",
     "DIGIT THREE", "DIGIT FOUR", "DIGIT FIVE", "DIGIT SIX", "DIGIT SEVEN", "DIGIT EIGHT",
     "DIGIT NINE", "COLON", "SEMICOLON", "LESS-THAN SIGN", "EQUALS SIGN", "GREATER-THAN SIGN",
     "QUESTION MARK", "COMMERCIAL AT", "LATIN CAPITAL LETTER A", "LATIN CAPITAL LETTER B",
     "LATIN CAPITAL LETTER C", "LATIN CAPITAL LETTER D", "LATIN CAPITAL LETTER E",
     "LATIN CAPITAL LETTER F", "LATIN CAPITAL LETTER G", "LATIN CAPITAL LETTER H",
     "LATIN CAPITAL LETTER I", "LATIN CAPITAL LETTER J", "LATIN CAPITAL LETTER K",
     "LATIN CAPITAL LETTER L", "LATIN CAPITAL LETTER M", "LATIN CAPITAL LETTER N",
     "LATIN CAPITAL LETTER O", "LATIN CAPITAL LETTER P", "LATIN CAPITAL LETTER Q",
     "LATIN CAPITAL LETTER R", "LATIN CAPITAL LETTER S", "LATIN CAPITAL LETTER T",
     "LATIN CAPITAL LETTER U", "LATIN CAPITAL LETTER V", "LATIN CAPITAL LETTER W",
     "LATIN CAPITAL LETTER X", "LATIN CAPITAL LETTER Y", "LATIN CAPITAL LETTER Z",
     "LEFT SQUARE BRACKET", "REVERSE SOLIDUS", "RIGHT SQUARE BRACKET", "CIRCUMFLEX ACCENT",
     "LOW LINE", "GRAVE ACCENT", "LATIN SMALL LETTER A", "LATIN SMALL LETTER B",
     "LATIN SMALL LETTER C", "LATIN SMALL LETTER D", "LATIN SMALL LETTER E",
     "LATIN SMALL LETTER F", "LATIN SMALL LETTER G", "LATIN SMALL LETTER H",
     "LATIN SMALL LETTER I", "LATIN SMALL LETTER J", "LATIN SMALL LETTER K",
     "LATIN SMALL LETTER L", "LATIN SMALL LETTER M", "LATIN SMALL LETTER N",
     "LATIN SMALL LETTER O", "LATIN SMALL LETTER P", "LATIN SMALL LETTER Q",
     "LATIN SMALL LETTER R", "LATIN SMALL LETTER S", "LATIN SMALL LETTER T",
     "LATIN SMALL LETTER U", "LATIN SMALL LETTER V", "LATIN SMALL LETTER W",
     "LATIN SMALL LETTER X", "LATIN SMALL LETTER Y", "LATIN SMALL LETTER Z", "LEFT CURLY BRACKET",
     "VERTICAL LINE", "RIGHT CURLY BRACKET", "TILDE"]⟩,
   ⟨0xA0,
    ["NO-BREAK SPACE", "INVERTED EXCLAMATION MARK", "CENT SIGN", "POUND SIGN", "CURRENCY SIGN",
     "YEN SIGN", "BROKEN BAR", "SECTION SIGN", "DIAERESIS", "COPYRIGHT SIGN",
     "FEMININE ORDINAL INDICATOR", "LEFT-POINTING DOUBLE ANGLE QUOTATION MARK", "NOT SIGN",
     "SOFT HYPHEN", "REGISTERED SIGN", "MACRON", "DEGREE SIGN", "PLUS-MINUS SIGN",
     "SUPERSCRIPT TWO", "SUPERSCRIPT THREE", "ACUTE ACCENT", "MICRO SIGN", "PILCROW SIGN",
     "MIDDLE DOT", "CEDILLA", "SUPERSCRIPT ONE", "MASCULINE ORDINAL INDICATOR",
     "RIGHT-POINTING DOUBLE ANGLE QUOTATION MARK", "VULGAR FRACTION ONE QUARTER",
     "VULGAR FRACTION ONE HALF", "VULGAR FRACTION THREE QUARTERS", "INVERTED QUESTION MARK",
     "LATIN CAPITAL LETTER A WITH GRAVE", "LATIN CAPITAL LETTER A WITH ACUTE",
     "LATIN CAPITAL LETTER A WITH CIRCUMFLEX", "LATIN CAPITAL LETTER A WITH TILDE",
     "LATIN CAPITAL LETTER A WITH DIAERESIS", "LATIN CAPITAL LETTER A WITH RING ABOVE",
     "LATIN CAPITAL LETTER AE", "LATIN CAPITAL LETTER C WITH CEDILLA",
     "LATIN CAPITAL LETTER E WITH GRAVE", "LATIN CAPITAL LETTER E WITH ACUTE",
     "LATIN CAPITAL LETTER E WITH CIRCUMFLEX", "LATIN CAPITAL LETTER E WITH DIAERESIS",
     "LATIN CAPITAL LETTER I WITH GRAVE", "LATIN CAPITAL LETTER I WITH ACUTE",
     "LATIN CAPITAL LETTER I WITH CIRCUMFLEX", "LATIN CAPITAL LETTER I WITH DIAERESIS",
     "LATIN CAPITAL LETTER ETH", "LATIN CAPITAL LETTER N WITH TILDE",
     "LATIN CAPITAL LETTER O WITH GRAVE", "LATIN CAPITAL LETTER O WITH ACUTE",
     "LATIN CAPITAL LETTER O WITH CIRCUMFLEX", "LATIN CAPITAL LETTER O WITH TILDE",
     "LATIN CAPITAL LETTER O WITH DIAERESIS", "MULTIPLICATION SIGN",
     "LATIN CAPITAL LETTER O WITH STROKE", "LATIN CAPITAL LETTER U WITH GRAVE",
     "LATIN CAPITAL LETTER U WITH ACUTE", "LATIN CAPITAL LETTER U WITH CIRCUMFLEX",
     "LATIN CAPITAL LETTER U WITH DIAERESIS", "LATIN CAPITAL LETTER Y WITH ACUTE",
     "LATIN CAPITAL LETTER THORN", "LATIN SMALL LETTER SHARP S",
     "LATIN SMALL LETTER A WITH GRAVE", "LATIN SMALL LETTER A WITH ACUTE",
     "LATIN SMALL LETTER A WITH CIRCUMFLEX", "LATIN SMALL LETTER A WITH TILDE",
     "LATIN SMALL LETTER A WITH DIAERESIS", "LATIN SMALL LETTER A WITH RING ABOVE",
     "LATIN SMALL LETTER AE", "LATIN SMALL LETTER C WITH CEDILLA",
     "LATIN SMALL LETTER E WITH GRAVE", "LATIN SMALL LETTER E WITH ACUTE",
     "LATIN SMALL LETTER E WITH CIRCUMFLEX", "LATIN SMALL LETTER E WITH DIAERESIS",
     "LATIN SMALL LETTER I WITH GRAVE", "LATIN SMALL LETTER I WITH ACUTE",
     "LATIN SMALL LETTER I WITH CIRCUMFLEX", "LATIN SMALL LETTER I WITH DIAERESIS",
     "LATIN SMALL LETTER ETH", "LATIN SMALL LETTER N WITH TILDE",
     "LATIN SMALL LETTER O WITH GRAVE", "LATIN SMALL LETTER O WITH ACUTE",
     "LATIN SMALL LETTER O WITH CIRCUMFLEX", "LATIN SMALL LETTER O WITH TILDE",
     "LATIN SMALL LETTER O WITH DIAERESIS", "DIVISION SIGN", "LATIN SMALL LETTER O WITH STROKE",
     "LATIN SMALL LETTER U WITH GRAVE", "LATIN SMALL LETTER U WITH ACUTE",
     "LATIN SMALL LETTER U WITH CIRCUMFLEX", "LATIN SMALL LETTER U WITH DIAERESIS",
     "LATIN SMALL LETTER Y WITH ACUTE", "LATIN SMALL LETTER THORN",
     "LATIN SMALL LETTER Y WITH DIAERESIS", "LATIN CAPITAL LETTER A WITH MACRON",
     "LATIN SMALL LETTER A WITH MACRON", "LATIN CAPITAL LETTER A WITH BREVE",
     "LATIN SMALL LETTER A WITH BREVE", "LATIN CAPITAL LETTER A WITH OGONEK",
     "LATIN SMALL LETTER A WITH OGONEK", "LATIN CAPITAL LETTER C WITH ACUTE",
     "LATIN SMALL LETTER C WITH ACUTE", "LATIN CAPITAL LETTER C WITH CIRCUMFLEX",
     "LATIN SMALL LETTER C WITH CIRCUMFLEX", "LATIN CAPITAL LETTER C WITH DOT ABOVE",
     "LATIN SMALL LETTER C WITH DOT ABOVE", "LATIN CAPITAL LETTER C WITH CARON",
     "LATIN SMALL LETTER C WITH CARON", "LATIN CAPITAL LETTER D WITH CARON",
     "LATIN SMALL LETTER D WITH CARON", "LATIN CAPITAL LETTER D WITH STROKE",
     "LATIN SMALL LETTER D WITH STROKE", "LATIN CAPITAL LETTER E WITH MACRON",
     "LATIN SMALL LETTER E WITH MACRON", "LATIN CAPITAL LETTER E WITH BREVE",
     "LATIN SMALL LETTER E WITH BREVE", "LATIN CAPITAL LETTER E WITH DOT ABOVE",
     "LATIN SMALL LETTER E WITH DOT ABOVE", "LATIN CAPITAL LETTER E WITH OGONEK",
     "LATIN SMALL LETTER E WITH OGONEK", "LATIN CAPITAL LETTER E WITH CARON",
     "LATIN SMALL LETTER E WITH CARON", "LATIN CAPITAL LETTER G WITH CIRCUMFLEX",
     "LATIN SMALL LETTER G WITH CIRCUMFLEX", "LATIN CAPITAL LETTER G WITH BREVE",
     "LATIN SMALL LETTER G WITH BREVE", "LATIN CAPITAL LETTER G WITH DOT ABOVE",
     "LATIN SMALL LETTER G WITH DOT ABOVE", "LATIN CAPITAL LETTER G WITH CEDILLA",
     "LATIN SMALL LETTER G WITH CEDILLA", "LATIN CAPITAL LETTER H WITH CIRCUMFLEX",
     "LATIN SMALL LETTER H WITH CIRCUMFLEX", "LATIN CAPITAL LETTER H WITH STROKE",
     "LATIN SMALL LETTER H WITH STROKE", "LATIN CAPITAL LETTER I WITH TILDE",
     "LATIN SMALL LETTER I WITH TILDE", "LATIN CAPITAL LETTER I WITH MACRON",
     "LATIN SMALL LETTER I WITH MACRON", "LATIN CAPITAL LETTER I WITH BREVE",
     "LATIN SMALL LETTER I WITH BREVE", "LATIN CAPITAL LETTER I WITH OGONEK",
     "LATIN SMALL LETTER I WITH OGONEK", "LATIN CAPITAL LETTER I WITH DOT ABOVE",
     "LATIN SMALL LETTER DOTLESS I", "LATIN CAPITAL LIGATURE IJ", "LATIN SMALL LIGATURE IJ",
     "LATIN CAPITAL LETTER J WITH CIRCUMFLEX", "LATIN SMALL LETTER J WITH CIRCUMFLEX",
     "LATIN CAPITAL LETTER K WITH CEDILLA", "LATIN SMALL LETTER K WITH CEDILLA",
     "LATIN SMALL LETTER KRA", "LATIN CAPITAL LETTER L WITH ACUTE",
     "LATIN SMALL LETTER L WITH ACUTE", "LATIN CAPITAL LETTER L WITH CEDILLA",
     "LATIN SMALL LETTER L WITH CEDILLA", "LATIN CAPITAL LETTER L WITH CARON",
     "LATIN SMALL LETTER L WITH CARON", "LATIN CAPITAL LETTER L WITH MIDDLE DOT",
     "LATIN SMALL LETTER L WITH MIDDLE DOT", "LATIN CAPITAL LETTER L WITH STROKE",
     "LATIN SMALL LETTER L WITH STROKE", "LATIN CAPITAL LETTER N WITH ACUTE",
     "LATIN SMALL LETTER N WITH ACUTE", "LATIN CAPITAL LETTER N WITH CEDILLA",
     "LATIN SMALL LETTER N WITH CEDILLA", "LATIN CAPITAL LETTER N WITH CARON",
     "LATIN SMALL LETTER N WITH CARON", "LATIN SMALL LETTER N PRECEDED BY APOSTROPHE",
     "LATIN CAPITAL LETTER ENG", "LATIN SMALL LETTER ENG", "LATIN CAPITAL LETTER O WITH MACRON",
     "LATIN SMALL LETTER O WITH MACRON", "LATIN CAPITAL LETTER O WITH BREVE",
     "LATIN SMALL LETTER O WITH BREVE", "LATIN CAPITAL LETTER O WITH DOUBLE ACUTE",
     "LATIN SMALL LETTER O WITH DOUBLE ACUTE", "LATIN CAPITAL LIGATURE OE",
     "LATIN SMALL LIGATURE OE", "LATIN CAPITAL LETTER R WITH ACUTE",
     "LATIN SMALL LETTER R WITH ACUTE", "LATIN CAPITAL LETTER R WITH CEDILLA",
     "LATIN SMALL LETTER R WITH CEDILLA", "LATIN CAPITAL LETTER R WITH CARON",
     "LATIN SMALL LETTER R WITH CARON", "LATIN CAPITAL LETTER S WITH ACUTE",
     "LATIN SMALL LETTER S WITH ACUTE", "LATIN CAPITAL LETTER S WITH CIRCUMFLEX",
     "LATIN SMALL LETTER S WITH CIRCUMFLEX", "LATIN CAPITAL LETTER S WITH CEDILLA",
     "LATIN SMALL LETTER S WITH CEDILLA", "LATIN CAPITAL LETTER S WITH CARON",
     "LATIN SMALL LETTER S WITH CARON", "LATIN CAPITAL LETTER T WITH CEDILLA",
     "LATIN SMALL LETTER T WITH CEDILLA", "LATIN CAPITAL LETTER T WITH CARON",
     "LATIN SMALL LETTER T WITH CARON", "LATIN CAPITAL LETTER T WITH STROKE",
     "LATIN SMALL LETTER T WITH STROKE", "LATIN CAPITAL LETTER U WITH TILDE",
     "LATIN SMALL LETTER U WITH TILDE", "LATIN CAPITAL LETTER U WITH MACRON",
     "LATIN SMALL LETTER U WITH MACRON", "LATIN CAPITAL LETTER U WITH BREVE",
     "LATIN SMALL LETTER U WITH BREVE", "LATIN CAPITAL LETTER U WITH RING ABOVE",
     "LATIN SMALL LETTER U WITH RING ABOVE", "LATIN CAPITAL LETTER U WITH DOUBLE ACUTE",
     "LATIN SMALL LETTER U WITH DOUBLE ACUTE", "LATIN CAPITAL LETTER U WITH OGONEK",
     "LATIN SMALL LETTER U WITH OGONEK", "LATIN CAPITAL LETTER W WITH CIRCUMFLEX",
     "LATIN SMALL LETTER W WITH CIRCUMFLEX", "LATIN CAPITAL LETTER Y WITH CIRCUMFLEX",
     "LATIN SMALL LETTER Y WITH CIRCUMFLEX", "LATIN CAPITAL LETTER Y WITH DIAERESIS",
     "LATIN CAPITAL LETTER Z WITH ACUTE", "LATIN SMALL LETTER Z WITH ACUTE",
     "LATIN CAPITAL LETTER Z WITH DOT ABOVE", "LATIN SMALL LETTER Z WITH DOT ABOVE",
     "LATIN CAPITAL LETTER Z WITH CARON", "LATIN SMALL LETTER Z WITH CARON",
     "LATIN SMALL LETTER LONG S"]⟩,
   ⟨0x391,
    ["GREEK CAPITAL LETTER ALPHA", "GREEK CAPITAL LETTER BETA", "GREEK CAPITAL LETTER GAMMA",
     "GREEK CAPITAL LETTER DELTA", "GREEK CAPITAL LETTER EPSILON", "GREEK CAPITAL LETTER ZETA",
     "GREEK CAPITAL LETTER ETA", "GREEK CAPITAL LETTER THETA", "GREEK CAPITAL LETTER IOTA",
     "GREEK CAPITAL LETTER KAPPA", "GREEK CAPITAL LETTER LAMDA", "GREEK CAPITAL LETTER MU",
     "GREEK CAPITAL LETTER NU", "GREEK CAPITAL LETTER XI", "GREEK CAPITAL LETTER OMICRON",
     "GREEK CAPITAL LETTER PI", "GREEK CAPITAL LETTER RHO"]⟩,
   ⟨0x3A3,
    ["GREEK CAPITAL LETTER SIGMA", "GREEK CAPITAL LETTER TAU", "GREEK CAPITAL LETTER UPSILON",
     "GREEK CAPITAL LETTER PHI", "GREEK CAPITAL LETTER CHI", "GREEK CAPITAL LETTER PSI",
     "GREEK CAPITAL LETTER OMEGA", "GREEK CAPITAL LETTER IOTA WITH DIALYTIKA",
     "GREEK CAPITAL LETTER UPSILON WITH DIALYTIKA", "GREEK SMALL LETTER ALPHA WITH TONOS",
     "GREEK SMALL LETTER EPSILON WITH TONOS", "GREEK SMALL LETTER ETA WITH TONOS",
     "GREEK SMALL LETTER IOTA WITH TONOS", "GREEK SMALL LETTER UPSILON WITH DIALYTIKA AND TONOS",
     "GREEK SMALL LETTER ALPHA", "GREEK SMALL LETTER BETA", "GREEK SMALL LETTER GAMMA",
     "GREEK SMALL LETTER DELTA", "GREEK SMALL LETTER EPSILON", "GREEK SMALL LETTER ZETA",
     "GREEK SMALL LETTER ETA", "GREEK SMALL LETTER THETA", "GREEK SMALL LETTER IOTA",
     "GREEK SMALL LETTER KAPPA", "GREEK SMALL LETTER LAMDA", "GREEK SMALL LETTER MU",
     "GREEK SMALL LETTER NU", "GREEK SMALL LETTER XI", "GREEK SMALL LETTER OMICRON",
     "GREEK SMALL LETTER PI", "GREEK SMALL LETTER RHO", "GREEK SMALL LETTER FINAL SIGMA",
     "GREEK SMALL LETTER SIGMA", "GREEK SMALL LETTER TAU", "GREEK SMALL LETTER UPSILON",
     "GREEK SMALL LETTER PHI", "GREEK SMALL LETTER CHI", "GREEK SMALL LETTER PSI",
     "GREEK SMALL LETTER OMEGA", "GREEK SMALL LETTER IOTA WITH DIALYTIKA",
     "GREEK SMALL LETTER UPSILON WITH DIALYTIKA", "GREEK SMALL LETTER OMICRON WITH TONOS",
     "GREEK SMALL LETTER UPSILON WITH TONOS", "GREEK SMALL LETTER OMEGA WITH TONOS"]⟩,
   ⟨0x401,
    ["CYRILLIC CAPITAL LETTER IO", "CYRILLIC CAPITAL LETTER DJE", "CYRILLIC CAPITAL LETTER GJE",
     "CYRILLIC CAPITAL LETTER UKRAINIAN IE", "CYRILLIC CAPITAL LETTER DZE",
     "CYRILLIC CAPITAL LETTER BYELORUSSIAN-UKRAINIAN I", "CYRILLIC CAPITAL LETTER YI",
     "CYRILLIC CAPITAL LETTER JE", "CYRILLIC CAPITAL LETTER LJE", "CYRILLIC CAPITAL LETTER NJE",
     "CYRILLIC CAPITAL LETTER TSHE", "CYRILLIC CAPITAL LETTER KJE",
     "CYRILLIC CAPITAL LETTER I WITH GRAVE", "CYRILLIC CAPITAL LETTER SHORT U",
     "CYRILLIC CAPITAL LETTER DZHE", "CYRILLIC CAPITAL LETTER A", "CYRILLIC CAPITAL LETTER BE",
     "CYRILLIC CAPITAL LETTER VE", "CYRILLIC CAPITAL LETTER GHE", "CYRILLIC CAPITAL LETTER DE",
     "CYRILLIC CAPITAL LETTER IE", "CYRILLIC CAPITAL LETTER ZHE", "CYRILLIC CAPITAL LETTER ZE",
     "CYRILLIC CAPITAL LETTER I", "CYRILLIC CAPITAL LETTER SHORT I", "CYRILLIC CAPITAL LETTER KA",
     "CYRILLIC CAPITAL LETTER EL", "CYRILLIC CAPITAL LETTER EM", "CYRILLIC CAPITAL LETTER EN",
     "CYRILLIC CAPITAL LETTER O", "CYRILLIC CAPITAL LETTER PE", "CYRILLIC CAPITAL LETTER ER",
     "CYRILLIC CAPITAL LETTER ES", "CYRILLIC CAPITAL LETTER TE", "CYRILLIC CAPITAL LETTER U",
     "CYRILLIC CAPITAL LETTER EF", "CYRILLIC CAPITAL LETTER HA", "CYRILLIC CAPITAL LETTER TSE",
     "CYRILLIC CAPITAL LETTER CHE", "CYRILLIC CAPITAL LETTER SHA",
     "CYRILLIC CAPITAL LETTER SHCHA", "CYRILLIC CAPITAL LETTER HARD SIGN",
     "CYRILLIC CAPITAL LETTER YERU", "CYRILLIC CAPITAL LETTER SOFT SIGN",
     "CYRILLIC CAPITAL LETTER E", "CYRILLIC CAPITAL LETTER YU", "CYRILLIC CAPITAL LETTER YA",
     "CYRILLIC SMALL LETTER A", "CYRILLIC SMALL LETTER BE", "CYRILLIC SMALL LETTER VE",
     "CYRILLIC SMALL LETTER GHE", "CYRILLIC SMALL LETTER DE", "CYRILLIC SMALL LETTER IE",
     "CYRILLIC SMALL LETTER ZHE", "CYRILLIC SMALL LETTER ZE", "CYRILLIC SMALL LETTER I",
     "CYRILLIC SMALL LETTER SHORT I", "CYRILLIC SMALL LETTER KA", "CYRILLIC SMALL LETTER EL",
     "CYRILLIC SMALL LETTER EM", "CYRILLIC SMALL LETTER EN", "CYRILLIC SMALL LETTER O",
     "CYRILLIC SMALL LETTER PE", "CYRILLIC SMALL LETTER ER", "CYRILLIC SMALL LETTER ES",
     "CYRILLIC SMALL LETTER TE", "CYRILLIC SMALL LETTER U", "CYRILLIC SMALL LETTER EF",
     "CYRILLIC SMALL LETTER HA", "CYRILLIC SMALL LETTER TSE", "CYRILLIC SMALL LETTER CHE",
     "CYRILLIC SMALL LETTER SHA", "CYRILLIC SMALL LETTER SHCHA",
     "CYRILLIC SMALL LETTER HARD SIGN", "CYRILLIC SMALL LETTER YERU",
     "CYRILLIC SMALL LETTER SOFT SIGN", "CYRILLIC SMALL LETTER E", "CYRILLIC SMALL LETTER YU",
     "CYRILLIC SMALL LETTER YA", "CYRILLIC SMALL LETTER IE WITH GRAVE",
     "CYRILLIC SMALL LETTER IO", "CYRILLIC SMALL LETTER DJE", "CYRILLIC SMALL LETTER GJE",
     "CYRILLIC SMALL LETTER UKRAINIAN IE", "CYRILLIC SMALL LETTER DZE",
     "CYRILLIC SMALL LETTER BYELORUSSIAN-UKRAINIAN I", "CYRILLIC SMALL LETTER YI",
     "CYRILLIC SMALL LETTER JE", "CYRILLIC SMALL LETTER LJE", "CYRILLIC SMALL LETTER NJE",
     "CYRILLIC SMALL LETTER TSHE", "CYRILLIC SMALL LETTER KJE",
     "CYRILLIC SMALL LETTER I WITH GRAVE", "CYRILLIC SMALL LETTER SHORT U",
     "CYRILLIC SMALL LETTER DZHE"]⟩,
   ⟨0x2010,
    ["HYPHEN", "NON-BREAKING HYPHEN", "FIGURE DASH", "EN DASH", "EM DASH", "HORIZONTAL BAR",
     "DOUBLE VERTICAL LINE", "DOUBLE LOW LINE", "LEFT SINGLE QUOTATION MARK",
     "RIGHT SINGLE QUOTATION MARK", "SINGLE LOW-9 QUOTATION MARK",
     "SINGLE HIGH-REVERSED-9 QUOTATION MARK", "LEFT DOUBLE QUOTATION MARK",
     "RIGHT DOUBLE QUOTATION MARK", "DOUBLE LOW-9 QUOTATION MARK",
     "DOUBLE HIGH-REVERSED-9 QUOTATION MARK", "DAGGER", "DOUBLE DAGGER", "BULLET",
     "TRIANGULAR BULLET", "ONE DOT LEADER", "TWO DOT LEADER", "HORIZONTAL ELLIPSIS",
     "HYPHENATION POINT"]⟩,
   ⟨0x2030,
    ["PER MILLE SIGN", "PER TEN THOUSAND SIGN", "PRIME", "DOUBLE PRIME", "TRIPLE PRIME",
     "REVERSED PRIME", "REVERSED DOUBLE PRIME", "REVERSED TRIPLE PRIME", "CARET",
     "SINGLE LEFT-POINTING ANGLE QUOTATION MARK", "SINGLE RIGHT-POINTING ANGLE QUOTATION MARK",
     "REFERENCE MARK", "DOUBLE EXCLAMATION MARK", "INTERROBANG", "OVERLINE", "UNDERTIE",
     "CHARACTER TIE", "CARET INSERTION POINT", "ASTERISM", "HYPHEN BULLET", "FRACTION SLASH",
     "LEFT SQUARE BRACKET WITH QUILL", "RIGHT SQUARE BRACKET WITH QUILL", "DOUBLE QUESTION MARK",
     "QUESTION EXCLAMATION MARK", "EXCLAMATION QUESTION MARK", "TIRONIAN SIGN ET",
     "REVERSED PILCROW SIGN", "BLACK LEFTWARDS BULLET", "BLACK RIGHTWARDS BULLET", "LOW ASTERISK",
     "REVERSED SEMICOLON", "CLOSE UP", "TWO ASTERISKS ALIGNED VERTICALLY",
     "COMMERCIAL MINUS SIGN", "SWUNG DASH", "INVERTED UNDERTIE", "FLOWER PUNCTUATION MARK",
     "THREE DOT PUNCTUATION", "QUADRUPLE PRIME", "FOUR DOT PUNCTUATION", "FIVE DOT PUNCTUATION",
     "TWO DOT PUNCTUATION", "FOUR DOT MARK", "DOTTED CROSS", "TRICOLON", "VERTICAL FOUR DOTS"]⟩,
   ⟨0x20A0,
    ["EURO-CURRENCY SIGN", "COLON SIGN", "CRUZEIRO SIGN", "FRENCH FRANC SIGN", "LIRA SIGN",
     "MILL SIGN", "NAIRA SIGN", "PESETA SIGN", "RUPEE SIGN", "WON SIGN", "NEW SHEQEL SIGN",
     "DONG SIGN", "EURO SIGN", "KIP SIGN", "TUGRIK SIGN", "DRACHMA SIGN", "GERMAN PENNY SIGN",
     "PESO SIGN", "GUARANI SIGN", "AUSTRAL SIGN", "HRYVNIA SIGN", "CEDI SIGN",
     "LIVRE TOURNOIS SIGN", "SPESMILO SIGN", "TENGE SIGN", "INDIAN RUPEE SIGN",
     "TURKISH LIRA SIGN", "NORDIC MARK SIGN", "MANAT SIGN", "RUBLE SIGN", "LARI SIGN",
     "BITCOIN SIGN", "SOM SIGN"]⟩]

/-- Further names, and the names of characters that stand alone. -/
def singleNames : List (String × Nat) :=
  [("NULL", 0x0), ("NUL", 0x0), ("START OF HEADING", 0x1), ("SOH", 0x1), ("START OF TEXT", 0x2),
   ("STX", 0x2), ("END OF TEXT", 0x3), ("ETX", 0x3), ("END OF TRANSMISSION", 0x4), ("EOT", 0x4),
   ("ENQUIRY", 0x5), ("ENQ", 0x5), ("ACKNOWLEDGE", 0x6), ("ACK", 0x6), ("ALERT", 0x7),
   ("BEL", 0x7), ("BACKSPACE", 0x8), ("BS", 0x8), ("CHARACTER TABULATION", 0x9),
   ("HORIZONTAL TABULATION", 0x9), ("HT", 0x9), ("TAB", 0x9), ("LINE FEED", 0xA),
   ("NEW LINE", 0xA), ("END OF LINE", 0xA), ("LF", 0xA), ("NL", 0xA), ("EOL", 0xA),
   ("LINE TABULATION", 0xB), ("VERTICAL TABULATION", 0xB), ("VT", 0xB), ("FORM FEED", 0xC),
   ("FF", 0xC), ("CARRIAGE RETURN", 0xD), ("CR", 0xD), ("SHIFT OUT", 0xE),
   ("LOCKING-SHIFT ONE", 0xE), ("SO", 0xE), ("SHIFT IN", 0xF), ("LOCKING-SHIFT ZERO", 0xF),
   ("SI", 0xF), ("DATA LINK ESCAPE", 0x10), ("DLE", 0x10), ("DEVICE CONTROL ONE", 0x11),
   ("DC1", 0x11), ("DEVICE CONTROL TWO", 0x12), ("DC2", 0x12), ("DEVICE CONTROL THREE", 0x13),
   ("DC3", 0x13), ("DEVICE CONTROL FOUR", 0x14), ("DC4", 0x14), ("NEGATIVE ACKNOWLEDGE", 0x15),
   ("NAK", 0x15), ("SYNCHRONOUS IDLE", 0x16), ("SYN", 0x16), ("END OF TRANSMISSION BLOCK", 0x17),
   ("ETB", 0x17), ("CANCEL", 0x18), ("CAN", 0x18), ("END OF MEDIUM", 0x19), ("EOM", 0x19),
   ("SUBSTITUTE", 0x1A), ("SUB", 0x1A), ("ESCAPE", 0x1B), ("ESC", 0x1B),
   ("INFORMATION SEPARATOR FOUR", 0x1C), ("FILE SEPARATOR", 0x1C), ("FS", 0x1C),
   ("INFORMATION SEPARATOR THREE", 0x1D), ("GROUP SEPARATOR", 0x1D), ("GS", 0x1D),
   ("INFORMATION SEPARATOR TWO", 0x1E), ("RECORD SEPARATOR", 0x1E), ("RS", 0x1E),
   ("INFORMATION SEPARATOR ONE", 0x1F), ("UNIT SEPARATOR", 0x1F), ("US", 0x1F), ("SP", 0x20),
   ("DELETE", 0x7F), ("DEL", 0x7F), ("NEXT LINE", 0x85), ("NEL", 0x85), ("NBSP", 0xA0),
   ("SHY", 0xAD), ("ZERO WIDTH SPACE", 0x200B), ("ZWSP", 0x200B),
   ("ZERO WIDTH NON-JOINER", 0x200C), ("ZWNJ", 0x200C), ("ZERO WIDTH JOINER", 0x200D),
   ("ZWJ", 0x200D), ("LEFT-TO-RIGHT MARK", 0x200E), ("LRM", 0x200E),
   ("RIGHT-TO-LEFT MARK", 0x200F), ("RLM", 0x200F), ("LINE SEPARATOR", 0x2028),
   ("PARAGRAPH SEPARATOR", 0x2029), ("NARROW NO-BREAK SPACE", 0x202F), ("NNBSP", 0x202F),
   ("MEDIUM MATHEMATICAL SPACE", 0x205F), ("MMSP", 0x205F), ("WORD JOINER", 0x2060),
   ("WJ", 0x2060), ("EM SPACE", 0x2003), ("EN SPACE", 0x2002), ("THIN SPACE", 0x2009),
   ("HAIR SPACE", 0x200A), ("IDEOGRAPHIC SPACE", 0x3000), ("ZERO WIDTH NO-BREAK SPACE", 0xFEFF),
   ("BYTE ORDER MARK", 0xFEFF), ("BOM", 0xFEFF), ("REPLACEMENT CHARACTER", 0xFFFD),
   ("LATIN CAPITAL LETTER SHARP S", 0x1E9E), ("GRINNING FACE", 0x1F600), ("SNAKE", 0x1F40D),
   ("LATIN SMALL LIGATURE FI", 0xFB01), ("SNOWMAN", 0x2603), ("KELVIN SIGN", 0x212A),
   ("ANGSTROM SIGN", 0x212B), ("OHM SIGN", 0x2126), ("SCRIPT CAPITAL P", 0x2118),
   ("WEIERSTRASS ELLIPTIC FUNCTION", 0x2118), ("TRADE MARK SIGN", 0x2122), ("INFINITY", 0x221E),
   ("LEFTWARDS ARROW", 0x2190), ("RIGHTWARDS ARROW", 0x2192), ("FOR ALL", 0x2200),
   ("THERE EXISTS", 0x2203), ("NOT EQUAL TO", 0x2260), ("LESS-THAN OR EQUAL TO", 0x2264),
   ("GREATER-THAN OR EQUAL TO", 0x2265), ("LATIN SMALL LETTER TURNED A", 0x250),
   ("LATIN SMALL LETTER A WITH STROKE", 0x2C65), ("ARABIC-INDIC DIGIT ZERO", 0x660),
   ("DEVANAGARI DIGIT ZERO", 0x966), ("MATHEMATICAL BOLD DIGIT ZERO", 0x1D7CE),
   ("HEBREW LETTER ALEF", 0x5D0), ("DESERET CAPITAL LETTER LONG I", 0x10400),
   ("DESERET SMALL LETTER LONG I", 0x10428), ("COMBINING ACUTE ACCENT", 0x301),
   ("PILE OF POO", 0x1F4A9)]

/-- The ranges of ideographs that are named by their numbers. -/
def ideographRanges : List (Nat × Nat) :=
  [(0x3400, 0x4DBF), (0x4E00, 0x9FFF), (0x20000, 0x2A6DF), (0x2A700, 0x2B738), (0x2B740, 0x2B81D),
   (0x2B820, 0x2CEA1), (0x2CEB0, 0x2EBE0), (0x30000, 0x3134A)]

/-- A text after another one that it begins with. -/
def afterLead? (lead : List Char) (letters : List Char) : Option (List Char) :=
  if lead.isPrefixOf letters then some (letters.drop lead.length) else none

/-- The ideograph of a name that gives its number in hexadecimal. -/
def ideographOf? (name : String) : Option Nat := do
  let digits ← afterLead? "CJK UNIFIED IDEOGRAPH-".toList name.toList
  let code := numeral 16 digits
  if (digits.length = 4 || digits.length = 5) && digits.all (fun c => isHexDigit c && !c.isLower) &&
      inRanges ideographRanges code then some code
  else none

/-- The place of a name among the names of consecutive characters. -/
def NameRun.find? (run : NameRun) (name : String) : Option Nat :=
  (run.names.findIdx? (· == name)).map (run.first + ·)

/-- The code point of a character by its name. -/
def codeOfName? (name : String) : Option Nat :=
  let upper := String.ofList (name.toList.map Char.toUpper)
  (nameRuns.findSome? (·.find? upper)).or ((singleNames.lookup upper).or (ideographOf? name))

end CallGraph.Text
