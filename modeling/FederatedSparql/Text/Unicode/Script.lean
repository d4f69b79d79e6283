import FederatedSparql.Text.Unicode.Run

/-!
The characters of some scripts.
-/

namespace FederatedSparql.Text.Unicode

/-- The Latin script. -/
def latin : List CodeRun :=
  [(65, 90, 1), (97, 122, 1), (170, 170, 1), (186, 186, 1), (192, 214, 1), (216, 246, 1),
   (248, 696, 1), (736, 740, 1), (7424, 7461, 1), (7468, 7516, 1), (7522, 7525, 1), (7531, 7543, 1),
   (7545, 7614, 1), (7680, 7935, 1), (8305, 8305, 1), (8319, 8319, 1), (8336, 8348, 1),
   (8490, 8491, 1), (8498, 8498, 1), (8526, 8526, 1), (8544, 8584, 1), (11360, 11391, 1),
   (42786, 42887, 1), (42891, 42972, 1), (42993, 43007, 1), (43824, 43866, 1), (43868, 43876, 1),
   (43878, 43881, 1), (64256, 64262, 1), (65313, 65338, 1), (65345, 65370, 1), (67456, 67461, 1),
   (67463, 67504, 1), (67506, 67514, 1), (122624, 122654, 1), (122661, 122666, 1)]

/-- The Greek script. -/
def greek : List CodeRun :=
  [(880, 883, 1), (885, 887, 1), (890, 893, 1), (895, 895, 1), (900, 902, 2), (904, 906, 1),
   (908, 908, 1), (910, 929, 1), (931, 993, 1), (1008, 1023, 1), (7462, 7466, 1), (7517, 7521, 1),
   (7526, 7530, 1), (7615, 7615, 1), (7936, 7957, 1), (7960, 7965, 1), (7968, 8005, 1),
   (8008, 8013, 1), (8016, 8023, 1), (8025, 8029, 2), (8031, 8061, 1), (8064, 8116, 1),
   (8118, 8132, 1), (8134, 8147, 1), (8150, 8155, 1), (8157, 8175, 1), (8178, 8180, 1),
   (8182, 8190, 1), (8486, 8486, 1), (43877, 43877, 1), (65856, 65934, 1), (65952, 65952, 1),
   (119296, 119365, 1)]

/-- The Cyrillic script. -/
def cyrillic : List CodeRun :=
  [(1024, 1156, 1), (1159, 1327, 1), (7296, 7306, 1), (7467, 7467, 1), (7544, 7544, 1),
   (11744, 11775, 1), (42560, 42655, 1), (65070, 65071, 1), (122928, 122989, 1),
   (123023, 123023, 1)]

/-- The Han script. -/
def han : List CodeRun :=
  [(11904, 11929, 1), (11931, 12019, 1), (12032, 12245, 1), (12293, 12295, 2), (12321, 12329, 1),
   (12344, 12347, 1), (13312, 19903, 1), (19968, 40959, 1), (63744, 64109, 1), (64112, 64217, 1),
   (94178, 94179, 1), (94192, 94198, 1), (131072, 173791, 1), (173824, 178205, 1),
   (178208, 183981, 1), (183984, 191456, 1), (191472, 192093, 1), (194560, 195101, 1),
   (196608, 201546, 1), (201552, 210041, 1)]

/-- The Hiragana script. -/
def hiragana : List CodeRun :=
  [(12353, 12438, 1), (12445, 12447, 1), (110593, 110879, 1), (110898, 110898, 1),
   (110928, 110930, 1), (127488, 127488, 1)]

/-- The Katakana script. -/
def katakana : List CodeRun :=
  [(12449, 12538, 1), (12541, 12543, 1), (12784, 12799, 1), (13008, 13054, 1), (13056, 13143, 1),
   (65382, 65391, 1), (65393, 65437, 1), (110576, 110579, 1), (110581, 110587, 1),
   (110589, 110590, 1), (110592, 110592, 1), (110880, 110882, 1), (110933, 110933, 1),
   (110948, 110951, 1)]

/-- The Arabic script. -/
def arabic : List CodeRun :=
  [(1536, 1540, 1), (1542, 1547, 1), (1549, 1562, 1), (1564, 1566, 1), (1568, 1599, 1),
   (1601, 1610, 1), (1622, 1647, 1), (1649, 1756, 1), (1758, 1791, 1), (1872, 1919, 1),
   (2160, 2193, 1), (2199, 2273, 1), (2275, 2303, 1), (64336, 64829, 1), (64832, 64975, 1),
   (65008, 65023, 1), (65136, 65140, 1), (65142, 65276, 1), (69216, 69246, 1), (69314, 69319, 1),
   (69328, 69336, 1), (69370, 69375, 1), (126464, 126467, 1), (126469, 126495, 1),
   (126497, 126498, 1), (126500, 126500, 1), (126503, 126503, 1), (126505, 126514, 1),
   (126516, 126519, 1), (126521, 126523, 2), (126530, 126530, 1), (126535, 126539, 2),
   (126541, 126543, 1), (126545, 126546, 1), (126548, 126548, 1), (126551, 126559, 2),
   (126561, 126562, 1), (126564, 126564, 1), (126567, 126570, 1), (126572, 126578, 1),
   (126580, 126583, 1), (126585, 126588, 1), (126590, 126590, 1), (126592, 126601, 1),
   (126603, 126619, 1), (126625, 126627, 1), (126629, 126633, 1), (126635, 126651, 1),
   (126704, 126705, 1)]

/-- The Hebrew script. -/
def hebrew : List CodeRun :=
  [(1425, 1479, 1), (1488, 1514, 1), (1519, 1524, 1), (64285, 64310, 1), (64312, 64316, 1),
   (64318, 64318, 1), (64320, 64321, 1), (64323, 64324, 1), (64326, 64335, 1)]

/-- The Thai script. -/
def thai : List CodeRun :=
  [(3585, 3642, 1), (3648, 3675, 1)]

/-- The Hangul script. -/
def hangul : List CodeRun :=
  [(4352, 4607, 1), (12334, 12335, 1), (12593, 12686, 1), (12800, 12830, 1), (12896, 12926, 1),
   (43360, 43388, 1), (44032, 55203, 1), (55216, 55238, 1), (55243, 55291, 1), (65440, 65470, 1),
   (65474, 65479, 1), (65482, 65487, 1), (65490, 65495, 1), (65498, 65500, 1)]

/-- The Devanagari script. -/
def devanagari : List CodeRun :=
  [(2304, 2384, 1), (2389, 2403, 1), (2406, 2431, 1), (43232, 43263, 1), (72448, 72457, 1)]

end FederatedSparql.Text.Unicode
