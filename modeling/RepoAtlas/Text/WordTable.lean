import RepoAtlas.Text.Ranges

/-!
# Letters and numbers

The characters beyond ASCII that count as part of a word: letters of every script and all numeric
characters. Nearly all of the letters may begin a name and the other way round; here are the others.
-/

namespace RepoAtlas.Text

/-- Letters and numeric characters from U+0080 on that may not begin a name. -/
def wideNumeric : Ranges := .ofCounts 0x80
  [50, 2, 5, 1, 2, 3, 699, 1, 741, 10, 134, 10, 198, 10, 412, 10, 118, 10, 4, 6, 108, 10, 118, 10, 118, 10, 2, 6,
   110, 13, 115, 10, 8, 7, 103, 10, 104, 7, 7, 19, 109, 10, 67, 1, 28, 10, 89, 1, 28, 10, 70, 20, 268, 10, 70, 10,
   719, 20, 1123, 10, 6, 10, 22, 10, 300, 10, 128, 11, 165, 10, 6, 10, 182, 10, 86, 10, 134, 10, 6, 10, 1046, 1, 3,
   6, 6, 10, 198, 16, 41, 1, 726, 60, 78, 22, 630, 30, 1385, 1, 305, 1, 866, 4, 138, 10, 30, 8, 1, 15, 32, 10, 39,
   15, 29536, 10, 518, 6, 154, 10, 38, 10, 198, 10, 22, 10, 86, 10, 406, 10, 20580, 6, 406, 2, 116, 1, 1, 1, 1, 1,
   1, 1, 1, 1, 1, 1, 1, 1, 1, 1, 145, 10, 132, 2, 359, 45, 65, 4, 17, 2, 341, 27, 36, 4, 380, 10, 942, 8, 25, 7, 39,
   9, 75, 5, 22, 6, 160, 2, 2, 16, 2, 46, 64, 9, 52, 2, 30, 3, 75, 5, 104, 8, 24, 8, 41, 7, 330, 6, 48, 10, 294, 31,
   158, 10, 42, 4, 112, 7, 134, 30, 128, 10, 60, 10, 144, 10, 7, 20, 251, 10, 342, 10, 118, 10, 374, 10, 102, 10,
   102, 12, 420, 19, 93, 10, 758, 29, 227, 10, 70, 10, 534, 21, 19083, 10, 86, 10, 134, 10, 1, 7, 798, 23, 25673,
   20, 108, 25, 1109, 50, 2368, 10, 422, 10, 1485, 9, 128, 10, 791, 59, 1, 3, 1, 4, 76, 45, 1, 15, 962, 13, 2787, 10]

/-- Characters from U+0080 on that may begin a name and are no letters. -/
def wideNonLetters : Ranges :=
  [(0x1885, 0x1886), (0x2118, 0x2118), (0x212E, 0x212E)]

end RepoAtlas.Text
