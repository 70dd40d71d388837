import KeysetBundle.Text.Combining

/-!
# Columns of a text

How many columns of a terminal a text takes. Combining characters, characters that are not shown
and the later parts of a syllable take none; wide characters of East Asian scripts and pictures
take two; all others take one.
-/

namespace KeysetBundle.Text

/-- The code points that take no column and are not combining. -/
def hiddenRanges : List (Nat × Nat) :=
  [
    (173, 173), (1541, 1541), (1564, 1564), (1807, 1807), (2192, 2193), (2274, 2274), (4448, 4607),
    (6158, 6158), (8203, 8203), (8205, 8207), (8234, 8238), (8288, 8303), (12644, 12644),
    (43258, 43258), (55216, 55238), (55243, 55291), (65279, 65279), (65440, 65440), (65520, 65528),
    (113824, 113827), (119155, 119162), (917504, 917535), (917632, 917759), (918000, 921599)
  ]

/-- The code points that take two columns. -/
def wideRanges : List (Nat × Nat) :=
  [
    (4352, 4447), (8986, 8987), (9001, 9002), (9193, 9196), (9200, 9200), (9203, 9203),
    (9725, 9726), (9748, 9749), (9776, 9783), (9800, 9811), (9855, 9855), (9866, 9871),
    (9875, 9875), (9889, 9889), (9898, 9899), (9917, 9918), (9924, 9925), (9934, 9934),
    (9940, 9940), (9962, 9962), (9970, 9971), (9973, 9973), (9978, 9978), (9981, 9981),
    (9989, 9989), (9994, 9995), (10024, 10024), (10060, 10060), (10062, 10062), (10067, 10069),
    (10071, 10071), (10133, 10135), (10160, 10160), (10175, 10175), (11035, 11036), (11088, 11088),
    (11093, 11093), (11904, 11929), (11931, 12019), (12032, 12245), (12272, 12329), (12336, 12350),
    (12353, 12438), (12443, 12543), (12549, 12591), (12593, 12643), (12645, 12686), (12688, 12773),
    (12783, 12830), (12832, 12871), (12880, 42124), (42128, 42182), (43360, 43388), (44032, 55203),
    (63744, 64255), (65040, 65049), (65072, 65106), (65108, 65126), (65128, 65131), (65281, 65376),
    (65504, 65510), (94176, 94179), (94208, 100343), (100352, 101589), (101631, 101640),
    (110576, 110579), (110581, 110587), (110589, 110590), (110592, 110882), (110898, 110898),
    (110928, 110930), (110933, 110933), (110948, 110951), (110960, 111355), (119552, 119638),
    (119648, 119670), (126980, 126980), (127183, 127183), (127374, 127374), (127377, 127386),
    (127488, 127490), (127504, 127547), (127552, 127560), (127568, 127569), (127584, 127589),
    (127744, 127776), (127789, 127797), (127799, 127868), (127870, 127891), (127904, 127946),
    (127951, 127955), (127968, 127984), (127988, 127988), (127992, 128062), (128064, 128064),
    (128066, 128252), (128255, 128317), (128331, 128334), (128336, 128359), (128378, 128378),
    (128405, 128406), (128420, 128420), (128507, 128591), (128640, 128709), (128716, 128716),
    (128720, 128722), (128725, 128728), (128732, 128735), (128747, 128748), (128756, 128764),
    (128992, 129003), (129008, 129008), (129292, 129338), (129340, 129349), (129351, 129535),
    (129648, 129660), (129664, 129674), (129678, 129734), (129736, 129736), (129741, 129756),
    (129759, 129770), (129775, 129784), (131072, 196605), (196608, 262141)
  ]

/-- The number of columns of a character. -/
def charWidth (c : Char) : Nat :=
  if c.toNat < 127 then 1
  else if isCombining c || inRanges hiddenRanges c.toNat then 0
  else if inRanges wideRanges c.toNat then 2
  else 1

/-- The number of columns of a text. -/
def width (text : String) : Nat := (text.toList.map charWidth).foldr (· + ·) 0

end KeysetBundle.Text
