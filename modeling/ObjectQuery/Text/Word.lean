import ObjectQuery.Text.Identifier
/-!
# Word characters and alphanumerics

Two classes close to the identifier characters, each given by where it differs from them. Type
names are made of word characters: alphabetic characters, marks, decimal digits, connectors and
the two joiners. Variable references end at the first character that is neither alphabetic nor
numeric.
-/
namespace ObjectQuery.Text

/-- Word characters that no identifier holds. -/
def wordOnly : Ranges where
  edges :=
    [890, 891, 1160, 1162, 6846, 6847, 8204, 8206, 8413, 8417, 8418, 8421, 9398, 9450, 11823,
     11824, 42608, 42611, 64606, 64612, 65018, 65020, 65136, 65137, 65138, 65139, 65140, 65141,
     65142, 65143, 65144, 65145, 65146, 65147, 65148, 65149, 65150, 65151, 127280, 127306,
     127312, 127338, 127344, 127370]

/-- Identifier characters that are no word characters. -/
def identifierOnly : Ranges where
  edges :=
    [183, 184, 903, 904, 4969, 4978, 6618, 6619, 8472, 8473, 8494, 8495]

/-- Whether the character can stand in a word. -/
def isWord (c : Char) : Bool :=
  if c.toNat < 128 then c.isAlphanum || c == '_'
  else wordOnly.contains c.toNat ||
    (isIdentifierRest c && !identifierOnly.contains c.toNat)

/-- Alphabetic or numeric characters that no identifier holds. -/
def numericOnly : Ranges where
  edges :=
    [178, 180, 185, 186, 188, 191, 890, 891, 2548, 2554, 2930, 2936, 3056, 3059, 3192, 3199,
     3416, 3423, 3440, 3449, 3882, 3892, 4978, 4989, 6128, 6138, 8304, 8305, 8308, 8314, 8320,
     8330, 8528, 8544, 8585, 8586, 9312, 9372, 9398, 9472, 10102, 10132, 11517, 11518, 11823,
     11824, 12690, 12694, 12832, 12842, 12872, 12880, 12881, 12896, 12928, 12938, 12977, 12992,
     43056, 43062, 64606, 64612, 65018, 65020, 65136, 65137, 65138, 65139, 65140, 65141, 65142,
     65143, 65144, 65145, 65146, 65147, 65148, 65149, 65150, 65151, 65799, 65844, 65909, 65913,
     65930, 65932, 66273, 66300, 66336, 66340, 67672, 67680, 67705, 67712, 67751, 67760, 67835,
     67840, 67862, 67868, 68028, 68030, 68032, 68048, 68050, 68096, 68160, 68169, 68221, 68223,
     68253, 68256, 68331, 68336, 68440, 68448, 68472, 68480, 68521, 68528, 68858, 68864, 69216,
     69247, 69405, 69415, 69457, 69461, 69573, 69580, 69714, 69734, 70113, 70133, 71482, 71484,
     71914, 71923, 72794, 72813, 73664, 73685, 93019, 93026, 93824, 93847, 119488, 119508,
     119520, 119540, 119648, 119673, 125127, 125136, 126065, 126124, 126125, 126128, 126129,
     126133, 126209, 126254, 126255, 126270, 127232, 127245, 127280, 127306, 127312, 127338,
     127344, 127370]

/-- Identifier characters that are neither alphabetic nor numeric. -/
def identifierMarks : Ranges where
  edges :=
    [183, 184, 768, 837, 838, 880, 903, 904, 1155, 1160, 1425, 1456, 1624, 1625, 1759, 1761,
     1770, 1773, 1856, 1867, 2027, 2036, 2045, 2046, 2072, 2074, 2093, 2094, 2137, 2140, 2200,
     2208, 2250, 2260, 2272, 2274, 2282, 2288, 2364, 2365, 2381, 2382, 2385, 2389, 2492, 2493,
     2509, 2510, 2558, 2559, 2620, 2621, 2637, 2638, 2748, 2749, 2765, 2766, 2813, 2816, 2876,
     2877, 2893, 2894, 2901, 2902, 3021, 3022, 3132, 3133, 3149, 3150, 3260, 3261, 3277, 3278,
     3387, 3389, 3405, 3406, 3530, 3531, 3655, 3661, 3662, 3663, 3770, 3771, 3784, 3789, 3790,
     3791, 3864, 3866, 3893, 3894, 3895, 3896, 3897, 3898, 3902, 3904, 3972, 3973, 3974, 3976,
     4038, 4039, 4151, 4152, 4153, 4155, 4957, 4960, 5908, 5910, 5940, 5941, 6068, 6070, 6089,
     6100, 6109, 6110, 6155, 6158, 6159, 6160, 6457, 6460, 6752, 6753, 6773, 6781, 6783, 6784,
     6832, 6846, 6849, 6860, 6964, 6965, 6980, 6981, 7019, 7028, 7082, 7084, 7142, 7143, 7154,
     7156, 7223, 7224, 7376, 7379, 7380, 7401, 7405, 7406, 7412, 7413, 7415, 7418, 7616, 7655,
     7669, 7680, 8255, 8257, 8276, 8277, 8400, 8413, 8417, 8418, 8421, 8433, 8472, 8473, 8494,
     8495, 11503, 11506, 11647, 11648, 12330, 12336, 12441, 12443, 42607, 42608, 42620, 42622,
     42736, 42738, 43014, 43015, 43052, 43053, 43204, 43205, 43232, 43250, 43307, 43310, 43347,
     43348, 43443, 43444, 43456, 43457, 43711, 43712, 43713, 43714, 43766, 43767, 44012, 44014,
     65024, 65040, 65056, 65072, 65075, 65077, 65101, 65104, 65343, 65344, 66045, 66046, 66272,
     66273, 68152, 68155, 68159, 68160, 68325, 68327, 69373, 69376, 69446, 69457, 69506, 69510,
     69702, 69703, 69744, 69745, 69759, 69760, 69817, 69819, 69939, 69941, 70003, 70004, 70080,
     70081, 70089, 70093, 70197, 70199, 70377, 70379, 70459, 70461, 70477, 70478, 70502, 70509,
     70512, 70517, 70722, 70723, 70726, 70727, 70750, 70751, 70850, 70852, 71103, 71105, 71231,
     71232, 71350, 71352, 71467, 71468, 71737, 71739, 71997, 71999, 72003, 72004, 72160, 72161,
     72243, 72245, 72263, 72264, 72344, 72346, 72767, 72768, 73026, 73027, 73028, 73030, 73111,
     73112, 73537, 73539, 78912, 78913, 78919, 78934, 92912, 92917, 92976, 92983, 94180, 94181,
     113821, 113822, 118528, 118574, 118576, 118599, 119141, 119146, 119149, 119155, 119163,
     119171, 119173, 119180, 119210, 119214, 119362, 119365, 121344, 121399, 121403, 121453,
     121461, 121462, 121476, 121477, 121499, 121504, 121505, 121520, 123184, 123191, 123566,
     123567, 123628, 123632, 124140, 124144, 125136, 125143, 125252, 125255, 125256, 125259,
     917760, 918000]

/-- Whether the character is alphabetic or numeric in any script. -/
def isAlphanumeric (c : Char) : Bool :=
  if c.toNat < 128 then c.isAlphanum
  else numericOnly.contains c.toNat ||
    (isIdentifierRest c && !identifierMarks.contains c.toNat)

end ObjectQuery.Text
